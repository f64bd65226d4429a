import SimplefinBridge.InvestmentFeed

/-!
# Stored records

The schema accepted every stored record, or the records from which it was
merged, and it still accepts it: a reader parses it to itself
(`KeepsRecords.parsed`).  This holds in every state that calls of the store
reach, whichever of their statements fail (`keepsRecords_run`).
-/

namespace SimplefinBridge

open Statements
open Transactional (bind_ok pure_ok except_bind_ok)

/-! ## Records that parse to themselves -/

/-- The schema of its kind accepts the record. -/
def InvestmentRecord.accepted (host : Host) : InvestmentRecord → Bool
  | product row => row.accepted host
  | valuation row => row.accepted host
  | activity row => row.accepted host
  | track row => row.accepted host
  | execution row => row.accepted host

/-- The record, trimmed as its kind is. -/
def InvestmentRecord.trimmed : InvestmentRecord → InvestmentRecord
  | product row => .product row.trimmed
  | valuation row => .valuation row.trimmed
  | activity row => .activity row.trimmed
  | track row => .track row.trimmed
  | execution row => .execution row.trimmed

/-- The schema parses the record to itself. -/
structure InvestmentRecord.Parsed (host : Host) (row : InvestmentRecord) : Prop where
  accepted : row.accepted host = true
  trimmed : row.trimmed = row

section
variable {host : Host} {provider : InvestmentProvider}

/-- A parsed snapshot has parsed records. -/
theorem parsed_of_snapshot {input snapshot : InvestmentSnapshot}
    (h : parseSnapshot host input = .ok snapshot) {row : InvestmentRecord}
    (hrow : row ∈ snapshot.records) : row.Parsed host := by
  obtain ⟨rfl, haccepted⟩ := parseSnapshot_ok h
  unfold InvestmentSnapshot.accepted at haccepted
  simp only [Bool.and_eq_true, List.all_eq_true] at haccepted
  obtain ⟨⟨⟨⟨⟨-, hproducts⟩, hvaluations⟩, hactivities⟩, htracks⟩, hexecutions⟩ := haccepted
  simp only [InvestmentSnapshot.records, List.mem_append, List.mem_map] at hrow
  rcases hrow with (((⟨r, hr, rfl⟩ | ⟨r, hr, rfl⟩) | ⟨r, hr, rfl⟩) | ⟨r, hr, rfl⟩) | ⟨r, hr, rfl⟩
  · obtain ⟨source, -, rfl⟩ := List.mem_map.mp hr
    exact ⟨hproducts _ hr, congrArg InvestmentRecord.product (trimmed_trimmed_product source)⟩
  · obtain ⟨source, -, rfl⟩ := List.mem_map.mp hr
    exact ⟨hvaluations _ hr, congrArg InvestmentRecord.valuation (trimmed_trimmed_valuation source)⟩
  · obtain ⟨source, -, rfl⟩ := List.mem_map.mp hr
    exact ⟨hactivities _ hr, congrArg InvestmentRecord.activity (trimmed_trimmed_activity source)⟩
  · obtain ⟨source, -, rfl⟩ := List.mem_map.mp hr
    exact ⟨htracks _ hr, congrArg InvestmentRecord.track (trimmed_trimmed_track source)⟩
  · obtain ⟨source, -, rfl⟩ := List.mem_map.mp hr
    exact ⟨hexecutions _ hr, congrArg InvestmentRecord.execution (trimmed_trimmed_execution source)⟩

/-! ## Merged products -/

/-- What the schema asks of the fields that a merge can change, and of the rest. -/
theorem InvestmentProduct.accepted_iff {product : InvestmentProduct} :
    product.accepted host = true ↔
      { product with currentValuationId := none, reportSummaries := none }.accepted host = true ∧
        (∀ current ∈ product.currentValuationId, isId current = true) ∧
        ∀ reports ∈ product.reportSummaries, (∀ report ∈ reports, report.accepted host = true) ∧
          (reports.map (·.id)).Nodup := by
  unfold InvestmentProduct.accepted
  simp only [Bool.and_eq_true, Option.all_eq_true, List.all_eq_true, decide_eq_true_eq,
    Option.all_none, Option.mem_def]
  tauto

/-- All are trimmed when each is. -/
theorem map_trimmed_iff {α : Type} {trim : α → α} {items : List α} :
    items.map trim = items ↔ ∀ a ∈ items, trim a = a := by
  have h := @List.map_eq_map_iff _ _ trim items id
  rwa [List.map_id] at h

/-- What is trimmed in a product. -/
theorem InvestmentProduct.trimmed_iff {product : InvestmentProduct} :
    product.trimmed = product ↔ jsTrim product.id = product.id ∧
      jsTrim product.providerProductId = product.providerProductId ∧
      jsTrim product.name = product.name ∧
      (∀ current ∈ product.currentValuationId, jsTrim current = current) ∧
      ∀ reports ∈ product.reportSummaries, ∀ report ∈ reports, report.trimmed = report := by
  obtain ⟨id, source, sourceId, kind, name, currency, current, liquidity, coverage, forecast,
    reports⟩ := product
  unfold InvestmentProduct.trimmed
  simp only [InvestmentProduct.mk.injEq, ← map_trimmed_iff]
  cases current with
  | none => cases reports <;> simp
  | some current => cases reports <;> simp

/-- A product that keeps its value is a parsed one, -/
theorem parsed_keepCurrentValue {old new : InvestmentProduct}
    (hold : (InvestmentRecord.product old).Parsed host)
    (hnew : (InvestmentRecord.product new).Parsed host) :
    (InvestmentRecord.product (keepCurrentValue provider old new)).Parsed host := by
  unfold keepCurrentValue
  by_cases hhapoalim : provider = .hapoalim
  swap
  · rwa [if_neg hhapoalim]
  rw [if_pos hhapoalim]
  obtain ⟨hbase, hcurrent, hreports⟩ := InvestmentProduct.accepted_iff.mp hnew.accepted
  obtain ⟨hid, hsource, hname, hcurrentTrim, hreportsTrim⟩ :=
    InvestmentProduct.trimmed_iff.mp (InvestmentRecord.product.inj hnew.trimmed)
  obtain ⟨-, -, -, holdTrim, -⟩ :=
    InvestmentProduct.trimmed_iff.mp (InvestmentRecord.product.inj hold.trimmed)
  have hkept : ∀ current ∈ new.currentValuationId.or old.currentValuationId,
      isId current = true ∧ jsTrim current = current := by
    intro current hmem
    rcases Option.or_eq_some_iff.mp hmem with hown | ⟨-, hother⟩
    · exact ⟨hcurrent current hown, hcurrentTrim current hown⟩
    · exact ⟨(InvestmentProduct.accepted_iff.mp hold.accepted).2.1 current hother,
        holdTrim current hother⟩
  refine ⟨?_, congrArg InvestmentRecord.product ?_⟩
  · exact InvestmentProduct.accepted_iff.mpr ⟨hbase, fun c hc => (hkept c hc).1, hreports⟩
  · exact InvestmentProduct.trimmed_iff.mpr
      ⟨hid, hsource, hname, fun c hc => (hkept c hc).2, hreportsTrim⟩

/-- and so is one that keeps its reports. -/
theorem parsed_accumulateReports {old new : InvestmentProduct}
    (hold : (InvestmentRecord.product old).Parsed host)
    (hnew : (InvestmentRecord.product new).Parsed host) :
    (InvestmentRecord.product (accumulateReports host old new)).Parsed host := by
  unfold accumulateReports
  by_cases hsome : old.reportSummaries.isSome ∨ new.reportSummaries.isSome
  swap
  · rwa [if_neg hsome]
  rw [if_pos hsome]
  have heach : ∀ product, (InvestmentRecord.product product).Parsed host →
      ∀ report ∈ product.reportSummaries.getD [],
        report.accepted host = true ∧ report.trimmed = report := by
    intro product hparsed report hreport
    cases hreports : product.reportSummaries with
    | none =>
        rw [hreports] at hreport
        cases hreport
    | some reports =>
        rw [hreports] at hreport
        exact ⟨((InvestmentProduct.accepted_iff.mp hparsed.accepted).2.2 reports hreports).1 report
          hreport, (InvestmentProduct.trimmed_iff.mp
            (InvestmentRecord.product.inj hparsed.trimmed)).2.2.2.2 reports hreports report hreport⟩
  have hperm := List.mergeSort_perm
    (mergeReports (old.reportSummaries.getD []) (new.reportSummaries.getD [])).rows
    (fun a b => (host.localeCompare a.id b.id).isLE)
  have hmerged : ∀ report ∈ sortReports host
      (mergeReports (old.reportSummaries.getD []) (new.reportSummaries.getD [])).rows,
        report.accepted host = true ∧ report.trimmed = report := by
    intro report hreport
    rcases KeyedTable.mem_of_mem_foldl_put (hperm.mem_iff.mp hreport) with hnone | hmem
    · cases hnone
    · rcases List.mem_append.mp hmem with hmem | hmem
      · exact heach old hold report hmem
      · exact heach new hnew report hmem
  have hunique : ((sortReports host
      (mergeReports (old.reportSummaries.getD []) (new.reportSummaries.getD [])).rows).map
        InvestmentReportSummary.id).Nodup :=
    (hperm.map _).nodup_iff.mpr (mergeReports _ _).nodup
  obtain ⟨hbase, hcurrent, -⟩ := InvestmentProduct.accepted_iff.mp hnew.accepted
  obtain ⟨hid, hsource, hname, hcurrentTrim, -⟩ :=
    InvestmentProduct.trimmed_iff.mp (InvestmentRecord.product.inj hnew.trimmed)
  refine ⟨?_, congrArg InvestmentRecord.product ?_⟩
  · refine InvestmentProduct.accepted_iff.mpr ⟨hbase, hcurrent, fun reports hreports => ?_⟩
    rw [← Option.some.inj hreports]
    exact ⟨fun report hreport => (hmerged report hreport).1, hunique⟩
  · refine InvestmentProduct.trimmed_iff.mpr ⟨hid, hsource, hname, hcurrentTrim, ?_⟩
    intro reports hreports report hreport
    rw [← Option.some.inj hreports] at hreport
    exact (hmerged report hreport).2

/-- A row written over a stored one parses to itself. -/
theorem parsed_rowOver {found : Option InvestmentRecord} {row : InvestmentRecord}
    (hfound : ∀ old ∈ found, old.Parsed host) (hrow : row.Parsed host) :
    (rowOver host provider found row).Parsed host := by
  cases found with
  | none => exact hrow
  | some old =>
      have hold := hfound old rfl
      cases row with
      | product new =>
          cases old with
          | product old =>
              exact parsed_accumulateReports hold (parsed_keepCurrentValue hold hrow)
          | _ => exact hrow
      | _ =>
          rw [rowOver_of_kind (some old) (by nofun)]
          exact hrow

end

/-! ## Databases -/

/-- The state of the source and the last observation can be read. -/
def Readable (provider : InvestmentProvider) (db : InvestmentDb) : Prop :=
  (∃ state, db.readState provider = .ok state) ∧ ∃ observed, db.lastApplied = .ok observed

/-- What every database is like that calls have reached: its records parse to
themselves and have the names that the relations ask for, and its source state
can be read. -/
structure KeepsRecords (host : Host) (provider : InvestmentProvider) (db : InvestmentDb) :
    Prop where
  parsed : ∀ row ∈ db.records.rows, row.Parsed host
  product : ∀ product, .product product ∈ db.records.rows →
    product.provider = provider ∧ IsProductId provider product.id
  valuation : ∀ value, .valuation value ∈ db.records.rows → IsProductId provider value.productId ∧
    (provider ≠ .hapoalim → investmentValuationId value.productId value.asOf = .ok value.id)
  readable : Readable provider db

section
variable {host : Host} {provider : InvestmentProvider} {db db' : InvestmentDb}

/-- A new database. -/
theorem keepsRecords_empty : KeepsRecords host provider emptyInvestmentDb := by
  refine ⟨?_, ?_, ?_, ⟨initialState provider, ?_⟩, none, rfl⟩
  · exact fun _ hrow => absurd hrow List.not_mem_nil
  · exact fun _ hrow => absurd hrow List.not_mem_nil
  · exact fun _ hrow => absurd hrow List.not_mem_nil
  · exact if_neg (not_not.mpr rfl)

/-- Another state of the source is read from the same records. -/
theorem KeepsRecords.of_records_eq (h : KeepsRecords host provider db)
    (hrecords : db'.records = db.records) (hread : Readable provider db') :
    KeepsRecords host provider db' := by
  refine ⟨?_, ?_, ?_, hread⟩
  · rw [hrecords]
    exact h.parsed
  · rw [hrecords]
    exact h.product
  · rw [hrecords]
    exact h.valuation

/-- Outside Hapoalim a valuation is named after its product and its date. -/
theorem RelationsHold.valuationId {snapshot : InvestmentSnapshot}
    (hrelations : RelationsHold provider snapshot) (hprovider : provider ≠ .hapoalim)
    {value : InvestmentValuation} (hvalue : value ∈ snapshot.valuations) :
    investmentValuationId value.productId value.asOf = .ok value.id := by
  have hvalid := hrelations.valuation value hvalue
  unfold validateValuation at hvalid
  cases hprovenance : value.provenance with
  | none =>
      rw [hprovenance] at hvalid
      obtain ⟨identity, hidentity, hsame⟩ := except_bind_ok.mp hvalid
      rwa [← require_ok.mp hsame] at hidentity
  | some archived =>
      rw [hprovenance] at hvalid
      exact absurd (require_ok.mp hvalid).1 hprovider

/-- A valuation names a product of the provider. -/
theorem RelationsHold.valuation_isProductId {snapshot : InvestmentSnapshot}
    (hrelations : RelationsHold provider snapshot) {value : InvestmentValuation}
    (hvalue : value ∈ snapshot.valuations) : IsProductId provider value.productId := by
  obtain ⟨product, -, hproduct, hid⟩ := hrelations.valuation_product hvalue
  rw [← hid]
  exact hrelations.isProductId hproduct

/-- The products among the records, -/
theorem mem_records_of_product {snapshot : InvestmentSnapshot} {product : InvestmentProduct}
    (h : .product product ∈ snapshot.records) : product ∈ snapshot.products := by
  simpa [InvestmentSnapshot.records] using h

/-- and the valuations. -/
theorem mem_records_of_valuation {snapshot : InvestmentSnapshot} {value : InvestmentValuation}
    (h : .valuation value ∈ snapshot.records) : value ∈ snapshot.valuations := by
  simpa [InvestmentSnapshot.records] using h

/-- The observation of an applied snapshot can be read again. -/
theorem lastApplied_afterSnapshot {snapshot : InvestmentSnapshot} {state : InvestmentSourceState}
    (hhapoalim : provider = .hapoalim) (haccepted : snapshot.accepted host = true) :
    ∃ observed, (db.afterSnapshot host provider snapshot state).lastApplied = .ok observed := by
  unfold InvestmentSnapshot.accepted at haccepted
  simp only [Bool.and_eq_true] at haccepted
  obtain ⟨t, ht⟩ := isTimestamp_iff.mp haccepted.1.1.1.1.1
  obtain ⟨u, hu, -⟩ := toIsoString_millis t
  have hobserved : dateParse snapshot.observedAt = some (millis t) := ht ▸ dateParse_text t
  refine ⟨some u.text, ?_⟩
  unfold InvestmentDb.lastApplied InvestmentDb.afterSnapshot normalizedObservation parseTimestamp
  dsimp only
  rw [if_pos hhapoalim, hobserved, Option.map_some, hu]
  dsimp only
  rw [if_pos (isTimestamp_iff.mpr ⟨u, rfl⟩)]
  rfl

/-- **An applied snapshot** keeps the records. -/
theorem KeepsRecords.afterSnapshot {input snapshot : InvestmentSnapshot}
    {state : InvestmentSourceState} (h : KeepsRecords host provider db)
    (hparse : parseSnapshot host input = .ok snapshot)
    (hrelations : RelationsHold provider snapshot) (hprovider : state.provider = provider)
    (haccepted : (appliedState provider state snapshot).accepted = true) :
    KeepsRecords host provider (db.afterSnapshot host provider snapshot state) := by
  have hkeys := hrelations.keys
  constructor
  · intro row hrow
    rcases (mem_afterSnapshot hkeys).mp hrow with ⟨new, hnew, rfl⟩ | ⟨hold, -⟩
    · refine parsed_rowOver (fun old hfound => ?_) (parsed_of_snapshot hparse hnew)
      exact h.parsed old (KeyedTable.mem_of_find hfound)
    · exact h.parsed row hold
  · intro product hrow
    rcases (mem_afterSnapshot hkeys).mp hrow with ⟨new, hnew, hsame⟩ | ⟨hold, -⟩
    · cases new with
      | product new =>
          obtain ⟨merged, hmerged, hid, hprovided, -⟩ := @rowOver_product host provider
            (db.records.find (InvestmentRecord.product new).key) new
          rw [hmerged] at hsame
          rw [InvestmentRecord.product.inj hsame, hid, hprovided]
          have hmem := mem_records_of_product hnew
          exact ⟨(hrelations.product new hmem).1, hrelations.isProductId hmem⟩
      | _ =>
          rw [rowOver_of_kind _ (by nofun)] at hsame
          cases hsame
    · exact h.product product hold
  · intro value hrow
    rcases (mem_afterSnapshot hkeys).mp hrow with ⟨new, hnew, hsame⟩ | ⟨hold, -⟩
    · cases new with
      | product new =>
          obtain ⟨merged, hmerged, -⟩ := @rowOver_product host provider
            (db.records.find (InvestmentRecord.product new).key) new
          rw [hmerged] at hsame
          cases hsame
      | _ =>
          rw [rowOver_of_kind _ (by nofun)] at hsame
          cases hsame
          try exact ⟨hrelations.valuation_isProductId (mem_records_of_valuation hnew),
            fun hother => hrelations.valuationId hother (mem_records_of_valuation hnew)⟩
    · exact h.valuation value hold
  · refine ⟨⟨_, readState_of_stored rfl hprovider haccepted⟩, ?_⟩
    by_cases hhapoalim : provider = .hapoalim
    · exact lastApplied_afterSnapshot hhapoalim (parseSnapshot_ok hparse).2
    · obtain ⟨observed, hobserved⟩ := h.readable.2
      refine ⟨observed, ?_⟩
      unfold InvestmentDb.lastApplied at hobserved ⊢
      unfold InvestmentDb.afterSnapshot
      dsimp only
      rwa [if_neg hhapoalim]

/-- **An imported snapshot** keeps the records, whatever it is imported as. -/
theorem KeepsRecords.imported {input : InvestmentSnapshot} {summary : InvestmentImportSummary}
    (h : KeepsRecords host provider db)
    (himported : imported host provider input db = .ok (summary, db')) :
    KeepsRecords host provider db' := by
  obtain ⟨snapshot, hparse, hcases⟩ := imported_ok.mp himported
  rcases hcases with ⟨-, -, hfailed⟩ | ⟨-, hvalid, hobserved⟩
  · obtain ⟨state, hread, ⟨-, haccepted, rfl⟩ | ⟨-, rfl⟩⟩ := failed_ok.mp hfailed
    · exact h.of_records_eq rfl
        ⟨⟨_, readState_of_stored rfl (readState_ok hread).1 haccepted⟩, h.readable.2⟩
    · exact h
  · obtain ⟨state, stale, hread, -, ⟨-, -, rfl⟩ | ⟨-, -, haccepted, -, rfl⟩⟩ :=
      observed_ok.mp hobserved
    · exact h
    · exact h.afterSnapshot hparse (relations_of_ok hvalid) (readState_ok hread).1 haccepted

/-- A checked archive was parsed. -/
theorem parseSnapshot_of_checkArchive {input snapshot : InvestmentSnapshot}
    {evidence : SeedEvidence} {stored : StoredEvidence}
    (h : checkArchive host provider input evidence = .ok (snapshot, stored)) :
    parseSnapshot host input = .ok snapshot := by
  obtain ⟨parsed, hparsed, -⟩ := except_bind_ok.mp h
  obtain ⟨haccepted, -⟩ := parseSnapshot_ok hparsed
  rw [(checkArchive_ok h).1, ← haccepted]
  exact hparsed

/-- **A seeded archive** keeps the records. -/
theorem KeepsRecords.seeded {input : InvestmentSnapshot} {evidence : SeedEvidence}
    {summary : InvestmentImportSummary} (h : KeepsRecords host provider db)
    (hseeded : seeded host provider input evidence db = .ok (summary, db')) :
    KeepsRecords host provider db' := by
  obtain ⟨snapshot, stored, hchecked, -, -, hrecords⟩ := seeded_ok.mp hseeded
  obtain ⟨happends, -⟩ := seeded_appends hseeded
  have hparse := parseSnapshot_of_checkArchive hchecked
  obtain ⟨-, hrelations, -⟩ := checkArchive_ok hchecked
  have hcases : ∀ row ∈ db'.records.rows, row ∈ db.records.rows ∨ row ∈ snapshot.records := by
    intro row hrow
    rcases seeded_mem hrecords hrow with hold | ⟨product, hproduct, rfl⟩ | ⟨value, hvalue, rfl⟩
    · exact .inl hold
    · exact .inr (mem_records_product hproduct)
    · exact .inr (mem_records_valuation hvalue)
  constructor
  · intro row hrow
    rcases hcases row hrow with hold | hnew
    · exact h.parsed row hold
    · exact parsed_of_snapshot hparse hnew
  · intro product hrow
    rcases hcases _ hrow with hold | hnew
    · exact h.product product hold
    · have hmem := mem_records_of_product hnew
      exact ⟨(hrelations.product product hmem).1, hrelations.isProductId hmem⟩
  · intro value hrow
    rcases hcases _ hrow with hold | hnew
    · exact h.valuation value hold
    · exact ⟨hrelations.valuation_isProductId (mem_records_of_valuation hnew),
        fun hother => hrelations.valuationId hother (mem_records_of_valuation hnew)⟩
  · obtain ⟨⟨state, hread⟩, observed, hobserved⟩ := h.readable
    refine ⟨⟨state, happends.readState.trans hread⟩, observed, ?_⟩
    rw [happends.rest]
    exact hobserved

/-- An import that is refused has changed nothing. -/
theorem atomic_imports {op : InvestmentOp} (himports : op.imports = true) :
    Atomic (op.perform host provider) := by
  cases op with
  | applySnapshot input => exact (atomic_applySnapshot host provider input).map some
  | seedArchive input evidence => exact (atomic_seedArchive host provider input evidence).map some
  | _ => cases himports

/-- One import, whether it returns or throws. -/
theorem KeepsRecords.afterImport {call : InvestmentCall} (h : KeepsRecords host provider db)
    (himports : call.op.imports = true) :
    KeepsRecords host provider (SimplefinBridge.callStep host provider db call) := by
  unfold SimplefinBridge.callStep InvestmentCall.result
  cases hresult : call.op.perform host provider ⟨db, call.faults⟩ with
  | error e s =>
      have hsame := atomic_imports himports _ e s hresult
      change KeepsRecords host provider s.store
      rwa [hsame]
  | ok answer s =>
      change KeepsRecords host provider s.store
      obtain ⟨op, faults⟩ := call
      cases op with
      | applySnapshot input =>
          obtain ⟨summary, -, hrun⟩ := perform_applySnapshot_ok host provider hresult
          exact h.imported ((computes_applySnapshot host provider input).returns _ _ _ hrun)
      | seedArchive input evidence =>
          obtain ⟨summary, mid, hrun, hlast⟩ := bind_ok.mp hresult
          obtain ⟨-, rfl⟩ := pure_ok.mp hlast
          exact h.seeded ((computes_seedArchive host provider input evidence).returns _ _ _ hrun)
      | _ => cases himports

/-! ## Calls that import nothing -/

/-- A program after which the state of the source is still read. -/
abbrev LeavesState {α : Type} (provider : InvestmentProvider) (program : InvestmentM α) : Prop :=
  Statements.Frames (fun (db db' : InvestmentDb) => Readable provider db → Readable provider db')
    program

section
variable {α β : Type}

/-- One program after another. -/
theorem leavesState_bind {first : InvestmentM α} {rest : α → InvestmentM β}
    (hfirst : LeavesState provider first) (hrest : ∀ a, LeavesState provider (rest a)) :
    LeavesState provider (first >>= rest) :=
  hfirst.bind hrest fun h h' hread => h' (h hread)

/-- A program that only reads leaves records and source alone. -/
theorem leavesState_of_readOnly {program : InvestmentM α} (h : ReadOnly program) :
    LeavesState provider program :=
  h.frames fun _ hread => hread

/-- So does reading a table. -/
theorem leavesState_select (read : InvestmentDb → Except InvestmentError α) :
    LeavesState provider (select read) :=
  leavesState_of_readOnly (readOnly_select read)

/-- So does a check. -/
theorem leavesState_ensure (result : Except InvestmentError α) :
    LeavesState provider (ensure result) :=
  leavesState_of_readOnly (readOnly_ensure result)

/-- So does an answer. -/
theorem leavesState_pure (a : α) : LeavesState provider (pure a : InvestmentM α) :=
  leavesState_of_readOnly (readOnly_pure a)

/-- A transaction leaves alone what its work leaves alone. -/
theorem leavesState_transaction {work : InvestmentM α} (h : LeavesState provider work) :
    LeavesState provider (Statements.transaction work) :=
  Statements.Frames.transaction h fun _ hread => hread

/-- A statement that does not touch the state of the source. -/
theorem leavesState_execute {effect : InvestmentDb → Except InvestmentError InvestmentDb}
    (heffect : ∀ db db', effect db = .ok db' → db'.sourceState = db.sourceState ∧
      db'.lastAppliedObservation = db.lastAppliedObservation) :
    LeavesState provider (execute effect) := by
  refine frames_execute (fun _ hread => hread) fun db db' h hread => ?_
  obtain ⟨hstate, hobserved⟩ := heffect db db' h
  unfold Readable InvestmentDb.readState InvestmentDb.storedState InvestmentDb.lastApplied at hread ⊢
  rwa [hstate, hobserved]

/-- A limiter that stores its attempts beside the state leaves it alone. -/
theorem leavesState_consumeAttempt {stored : InvestmentDb → Option (List String)}
    {store : InvestmentDb → List String → InvestmentDb}
    (hstore : ∀ db attempts, (store db attempts).sourceState = db.sourceState ∧
      (store db attempts).lastAppliedObservation = db.lastAppliedObservation)
    (window : Int) (instant : Instant) (attemptedAt : String) :
    LeavesState provider (consumeAttempt stored store window instant attemptedAt) := by
  refine leavesState_transaction (leavesState_bind (leavesState_select _) fun previous => ?_)
  by_cases hroom : (recentAttempts window instant previous).length < 2
  · simp only [if_pos hroom]
    refine leavesState_bind (leavesState_execute fun db db' h => ?_) fun _ => leavesState_pure _
    cases h
    exact hstore db _
  · simp only [if_neg hroom]
    exact leavesState_pure _

end

/-- A failure keeps a readable source row. -/
theorem leavesState_recordFailure (failure : InvestmentFailure) :
    LeavesState provider (recordFailure provider failure) := by
  refine (computes_recordFailure provider failure).frames (atomic_recordFailure provider failure)
    (fun _ hread => hread) ?_
  intro db u db' h hread
  cases hfailed : failed provider failure db with
  | error e =>
      rw [hfailed] at h
      cases h
  | ok after =>
      rw [hfailed] at h
      cases h
      obtain ⟨state, hstate, ⟨-, haccepted, rfl⟩ | ⟨-, rfl⟩⟩ := failed_ok.mp hfailed
      · exact ⟨⟨_, readState_of_stored rfl (readState_ok hstate).1 haccepted⟩, hread.2⟩
      · exact hread

/-- Storing the session leaves both alone. -/
theorem leavesState_setSessionState (state : ClalSessionState) :
    LeavesState provider (setSessionState state) := by
  refine leavesState_bind (leavesState_ensure _) fun validated => ?_
  refine leavesState_transaction (leavesState_bind (leavesState_select _) fun previous => ?_)
  by_cases hlater : checkedLater previous validated = true
  · rw [if_pos hlater]
    refine leavesState_execute fun db db' h => ?_
    cases h
    exact ⟨rfl, rfl⟩
  · rw [if_neg hlater]
    exact leavesState_pure _

/-- So does counting a message. -/
theorem leavesState_consumeAutomaticSmsAttempt (attemptedAt : String) :
    LeavesState provider (consumeAutomaticSmsAttempt attemptedAt) := by
  refine leavesState_bind (leavesState_ensure _) fun _ =>
    leavesState_bind (leavesState_consumeAttempt ?_ _ _ _) fun _ => leavesState_pure _
  exact fun db attempts => ⟨rfl, rfl⟩

/-- So does counting a refresh. -/
theorem leavesState_consumeControlRefreshAttempt (now : String) :
    LeavesState provider (consumeControlRefreshAttempt now) := by
  refine leavesState_bind (leavesState_ensure _) fun _ =>
    leavesState_bind (leavesState_consumeAttempt ?_ _ _ _) fun _ => leavesState_pure _
  exact fun db attempts => ⟨rfl, rfl⟩

/-- So does reserving a recovery. -/
theorem leavesState_reserveManualRecoveryRequest (requestId createdAt : String) :
    LeavesState provider (reserveManualRecoveryRequest host requestId createdAt) := by
  refine leavesState_bind (leavesState_ensure _) fun _ =>
    leavesState_bind (leavesState_ensure _) fun _ =>
      leavesState_bind (leavesState_transaction
        (leavesState_bind (leavesState_select _) fun found => ?_)) fun stored => ?_
  · cases found with
    | some request => exact leavesState_pure _
    | none =>
        refine leavesState_bind (leavesState_execute fun db db' h => ?_) fun _ =>
          leavesState_bind (leavesState_execute fun db db' h => ?_) fun _ => leavesState_pure _
        · cases h
          exact ⟨rfl, rfl⟩
        · cases h
          exact ⟨rfl, rfl⟩
  · cases stored with
    | some request => exact leavesState_bind (leavesState_ensure _) fun _ => leavesState_pure _
    | none => exact leavesState_pure _

/-- So does finishing one. -/
theorem leavesState_finishManualRecoveryRequest (recovery : RecoveryStatus) :
    LeavesState provider (finishManualRecoveryRequest host recovery) := by
  refine leavesState_bind (leavesState_ensure _) fun validated =>
    leavesState_execute fun db db' h => ?_
  cases hfound : db.recoveryRequests.find validated.challengeId with
  | none =>
      rw [hfound] at h
      cases h
      exact ⟨rfl, rfl⟩
  | some request =>
      rw [hfound] at h
      cases h
      exact ⟨rfl, rfl⟩

/-- Every operation that imports no records leaves the state to be read. -/
theorem leavesState_perform {op : InvestmentOp} (himports : op.imports = false) :
    LeavesState provider (op.perform host provider) := by
  have hthen : ∀ {α : Type} {program : InvestmentM α}, LeavesState provider program →
      LeavesState provider
        (program >>= fun _ => (pure none : InvestmentM (Option InvestmentImportSummary))) :=
    fun h => leavesState_bind h fun _ => leavesState_pure none
  cases op with
  | applySnapshot input => cases himports
  | seedArchive input evidence => cases himports
  | recordFailure failure => exact hthen (leavesState_recordFailure failure)
  | getSessionState =>
      exact hthen (leavesState_bind (leavesState_select _) fun _ => leavesState_pure _)
  | setSessionState state => exact hthen (leavesState_setSessionState state)
  | getAutomaticSmsNextAllowedAt now =>
      exact hthen (leavesState_bind (leavesState_ensure _) fun _ =>
        leavesState_bind (leavesState_select _) fun _ => leavesState_pure _)
  | consumeAutomaticSmsAttempt attemptedAt =>
      exact hthen (leavesState_consumeAutomaticSmsAttempt attemptedAt)
  | consumeControlRefreshAttempt now =>
      exact hthen (leavesState_consumeControlRefreshAttempt now)
  | getManualRecoveryRequest requestId =>
      exact hthen (leavesState_bind (leavesState_ensure _) fun _ => leavesState_select _)
  | getLatestManualRecoveryRequest => exact hthen (leavesState_select _)
  | reserveManualRecoveryRequest requestId createdAt =>
      exact hthen (leavesState_reserveManualRecoveryRequest requestId createdAt)
  | finishManualRecoveryRequest recovery =>
      exact hthen (leavesState_finishManualRecoveryRequest recovery)
  | getFeed => exact hthen (leavesState_of_readOnly (readOnly_readFeed provider))

/-! ## Runs -/

/-- One call, whether it returns or throws. -/
theorem KeepsRecords.callStep (h : KeepsRecords host provider db) (call : InvestmentCall) :
    KeepsRecords host provider (SimplefinBridge.callStep host provider db call) := by
  by_cases himports : call.op.imports = true
  · exact h.afterImport himports
  · have hnone := Bool.eq_false_iff.mpr himports
    have hrecords := leavesHistory_perform host provider hnone ⟨db, call.faults⟩
    have hstate := @leavesState_perform host provider _ hnone ⟨db, call.faults⟩
    exact h.of_records_eq hrecords.records (hstate h.readable)

/-- **Every run of calls** keeps the records. -/
theorem keepsRecords_run (calls : List InvestmentCall) :
    KeepsRecords host provider (calls.foldl (SimplefinBridge.callStep host provider)
      emptyInvestmentDb) := by
  have hrun : ∀ db, KeepsRecords host provider db →
      KeepsRecords host provider (calls.foldl (SimplefinBridge.callStep host provider) db) := by
    induction calls with
    | nil => exact fun db h => h
    | cons call calls ih => exact fun db h => ih _ (h.callStep call)
  exact hrun _ keepsRecords_empty

end

end SimplefinBridge
