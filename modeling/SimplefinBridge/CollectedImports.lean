import SimplefinBridge.ClalReports

/-!
# Imports of collected snapshots

The collectors check nothing that the store does not check again, and the store
checks nothing that they do not keep.  So the only collected snapshot that the
store refuses is one older than the last success, whatever calls and failed
statements came before (`applySnapshot_collected`).
-/

namespace SimplefinBridge

open Statements
open Transactional (except_bind_ok exists_ok_of_any)

/-- What the collectors of a provider give the store. -/
inductive Collects (host : Host) : InvestmentProvider → InvestmentSnapshot → Prop
  | bestInvest {input snapshot reasons} :
      buildBestInvestSnapshot host input = .ok (snapshot, reasons) →
        Collects host .hachshara_best_invest snapshot
  | clal {input snapshot} : readClalSnapshot host input = .ok snapshot →
      Collects host .clal snapshot
  | hapoalim {read window snapshot} : buildHapoalimSnapshot host read window = .ok snapshot →
      Collects host .hapoalim snapshot

section
variable {host : Host} {provider : InvestmentProvider} {snapshot : InvestmentSnapshot}
  {db : InvestmentDb}

/-- A collected snapshot is well made. -/
theorem Collects.wellMade (h : Collects host provider snapshot) :
    WellMade host provider snapshot := by
  cases h with
  | bestInvest h => exact buildBestInvestSnapshot_wellMade h
  | clal h => exact (readClalSnapshot_made h).toWellMade
  | hapoalim h => exact buildHapoalimSnapshot_wellMade h

/-- A complete snapshot is older than the last success of a provider whose
observations may not go back. -/
def Predates (provider : InvestmentProvider) (db : InvestmentDb) (snapshot : InvestmentSnapshot) :
    Prop :=
  isIncomplete provider snapshot = false ∧
    ∃ state, db.readState provider = .ok state ∧ ¬ followsLastSuccess provider state snapshot.observedAt

/-! ## States -/

/-- A state that is read is one of the schema, -/
theorem readState_accepted {state : InvestmentSourceState}
    (h : db.readState provider = .ok state) : state.accepted = true := by
  obtain ⟨-, ⟨-, haccepted⟩ | ⟨-, rfl⟩⟩ := readState_ok h
  · exact haccepted
  · rfl

/-- and so is the state after a failure -/
theorem failedState_accepted {state : InvestmentSourceState} {failure : InvestmentFailure}
    (hstate : state.accepted = true) (htime : isTimestamp failure.attemptedAt = true) :
    (failedState state failure).accepted = true := by
  unfold InvestmentSourceState.accepted at hstate ⊢
  simp only [Bool.and_eq_true] at hstate ⊢
  exact ⟨⟨htime, hstate.1.2⟩, hstate.2⟩

/-- or after a snapshot. -/
theorem appliedState_accepted {state : InvestmentSourceState} (hstate : state.accepted = true)
    (htime : isTimestamp snapshot.observedAt = true) :
    (appliedState provider state snapshot).accepted = true := by
  unfold InvestmentSourceState.accepted at hstate ⊢
  simp only [Bool.and_eq_true] at hstate ⊢
  refine ⟨⟨htime, ?_⟩, hstate.2⟩
  unfold appliedState
  dsimp only
  by_cases hcomplete : currentValuesComplete provider snapshot = true
  · rw [if_pos hcomplete]
    exact htime
  · rw [if_neg hcomplete]
    exact hstate.1.2

/-- A snapshot is of a time. -/
theorem WellMade.observedAt (h : WellMade host provider snapshot) :
    isTimestamp snapshot.observedAt = true := by
  have haccepted := (parseSnapshot_ok h.parsed).2
  unfold InvestmentSnapshot.accepted at haccepted
  simp only [Bool.and_eq_true] at haccepted
  exact haccepted.1.1.1.1.1

/-! ## One import -/

/-- Staleness can be read. -/
theorem readStaleness_isOk (hreadable : Readable provider db) (state : InvestmentSourceState)
    (observedAt : String) : ∃ stale, readStaleness provider state observedAt db = .ok stale := by
  obtain ⟨-, observed, hobserved⟩ := hreadable
  unfold readStaleness
  by_cases hhapoalim : provider = .hapoalim
  · rw [if_pos hhapoalim]
    exact ⟨_, except_bind_ok.mpr ⟨observed, hobserved, rfl⟩⟩
  · rw [if_neg hhapoalim]
    exact ⟨false, rfl⟩

/-- **A well-made snapshot** is imported, or it predates the last success. -/
theorem imported_wellMade (h : WellMade host provider snapshot) (hreadable : Readable provider db) :
    (¬ Predates provider db snapshot ∧ ∃ answer, imported host provider snapshot db = .ok answer) ∨
      (Predates provider db snapshot ∧
        imported host provider snapshot db = .error .observationPredates) := by
  obtain ⟨state, hstate⟩ := hreadable.1
  have haccepted := readState_accepted hstate
  by_cases hincomplete : isIncomplete provider snapshot = true
  · refine .inl ⟨fun hpredates => ?_, ?_⟩
    · rw [hpredates.1] at hincomplete
      cases hincomplete
    · have hfailed : ∃ after, failed provider (incompleteResponse snapshot) db = .ok after := by
        by_cases hfollows : followsLastAttempt state snapshot.observedAt = true
        · exact ⟨_, failed_ok.mpr ⟨state, hstate,
            .inl ⟨hfollows, failedState_accepted haccepted h.observedAt, rfl⟩⟩⟩
        · exact ⟨db, failed_ok.mpr ⟨state, hstate, .inr ⟨Bool.eq_false_iff.mpr hfollows, rfl⟩⟩⟩
      obtain ⟨after, hafter⟩ := hfailed
      exact ⟨(nothingApplied, after),
        imported_ok.mpr ⟨snapshot, h.parsed, .inl ⟨hincomplete, rfl, hafter⟩⟩⟩
  · rw [Bool.not_eq_true] at hincomplete
    have hvalid := h.collected.related h.distinct
    have himported : imported host provider snapshot db = observed host provider snapshot db := by
      unfold imported
      rw [h.parsed]
      change (if isIncomplete provider snapshot = true then _ else _) = _
      rw [hincomplete, if_neg Bool.false_ne_true, hvalid]
      rfl
    obtain ⟨stale, hstale⟩ := readStaleness_isOk hreadable state snapshot.observedAt
    by_cases hfollows : followsLastSuccess provider state snapshot.observedAt
    · refine .inl ⟨fun hpredates => ?_, ?_⟩
      · obtain ⟨-, other, hother, hnot⟩ := hpredates
        obtain rfl := Except.ok.inj (hstate.symm.trans hother)
        exact hnot hfollows
      · rw [himported]
        cases stale with
        | true => exact ⟨_, observed_ok.mpr ⟨state, true, hstate, hstale, .inl ⟨rfl, rfl, rfl⟩⟩⟩
        | false => exact ⟨_, observed_ok.mpr ⟨state, false, hstate, hstale, .inr ⟨rfl, hfollows,
            appliedState_accepted haccepted h.observedAt, rfl, rfl⟩⟩⟩
    · refine .inr ⟨⟨hincomplete, state, hstate, hfollows⟩, ?_⟩
      have hother : ¬ provider = .hapoalim := fun hsame => hfollows (.inl hsame)
      have hfresh : readStaleness provider state snapshot.observedAt db = .ok false := by
        unfold readStaleness
        rw [if_neg hother]
      rw [himported]
      unfold observed
      rw [hstate]
      change (readStaleness provider state snapshot.observedAt db >>= _) = _
      rw [hfresh]
      change (require _ _ >>= _) = _
      unfold require
      rw [if_neg hfollows]
      rfl

/-! ## Any run -/

/-- What the store does with a collected snapshot, whichever statements fail. -/
structure TakesSnapshot (host : Host) (provider : InvestmentProvider) (db : InvestmentDb)
    (snapshot : InvestmentSnapshot) : Prop where
  /-- Where no statement fails, only an older snapshot is refused. -/
  taken : ¬ Predates provider db snapshot →
    ∃ summary s, applySnapshot host provider snapshot ⟨db, []⟩ = .ok summary s
  older : Predates provider db snapshot →
    ∃ s, applySnapshot host provider snapshot ⟨db, []⟩ = .error .observationPredates s
  /-- A refusal has no other reason, and it leaves the database alone. -/
  refused : ∀ faults e s, applySnapshot host provider snapshot ⟨db, faults⟩ = .error e s →
    s.store = db ∧ (e = .statementFailed ∨ e = .observationPredates ∧ Predates provider db snapshot)
  /-- Of an applied snapshot every record is stored, merged into an older one. -/
  stored : ∀ faults summary s,
    applySnapshot host provider snapshot ⟨db, faults⟩ = .ok summary s →
      if summary.applied then ∀ row ∈ snapshot.records,
        rowOver host provider (db.records.find row.key) row ∈ s.store.records.rows
      else s.store.records = db.records

/-- **What the store does with it.** -/
theorem WellMade.takesSnapshot (h : WellMade host provider snapshot)
    (hreadable : Readable provider db) : TakesSnapshot host provider db snapshot := by
  have hcomputes := computes_applySnapshot host provider snapshot
  have hcases := imported_wellMade h hreadable
  constructor
  · intro hnot
    rcases hcases with ⟨-, ⟨summary, after⟩, hanswer⟩ | ⟨hpredates, -⟩
    · exact ⟨summary, _, hcomputes.accepted _ _ _ hanswer⟩
    · exact absurd hpredates hnot
  · intro hpredates
    rcases hcases with ⟨hnot, -⟩ | ⟨-, herror⟩
    · exact absurd hpredates hnot
    · obtain ⟨s, hs⟩ := hcomputes.threw _ _ herror
      exact ⟨_, hs⟩
  · intro faults e s hrun
    refine ⟨atomic_applySnapshot host provider snapshot _ e s hrun, ?_⟩
    rcases hcomputes.fails _ _ _ hrun with hfault | herror
    · exact .inl hfault
    · rcases hcases with ⟨-, answer, hanswer⟩ | ⟨hpredates, hpredated⟩
      · rw [hanswer] at herror
        cases herror
      · rw [hpredated] at herror
        exact .inr ⟨(Except.error.inj herror).symm, hpredates⟩
  · intro faults summary s hrun
    obtain ⟨parsed, hparsed, hanswer⟩ := imported_ok.mp (hcomputes.returns _ _ _ hrun)
    obtain rfl := Except.ok.inj (h.parsed.symm.trans hparsed)
    rcases hanswer with ⟨-, rfl, hfailed⟩ | ⟨-, hvalid, hobserved⟩
    · change s.store.records = db.records
      obtain ⟨state, -, ⟨-, -, hstore⟩ | ⟨-, hstore⟩⟩ := failed_ok.mp hfailed
      · rw [hstore]
        rfl
      · rw [hstore]
    · obtain ⟨state, stale, -, -, ⟨-, rfl, hstore⟩ | ⟨-, -, -, rfl, hstore⟩⟩ :=
        observed_ok.mp hobserved
      · change s.store.records = db.records
        rw [hstore]
      · rw [summaryOf_applied, if_pos rfl]
        intro row hrow
        rw [hstore]
        exact (mem_afterSnapshot (relations_of_ok hvalid).keys).mpr (.inl ⟨row, hrow, rfl⟩)

/-- **What the collectors make, the store takes**: after every run of calls,
whichever of their statements failed. -/
theorem applySnapshot_collected (h : Collects host provider snapshot)
    (calls : List InvestmentCall) :
    TakesSnapshot host provider (reachedDb host provider calls) snapshot :=
  h.wellMade.takesSnapshot (keepsRecords_reached host provider calls).readable

end

/-- The policy as it was stored the day before, under another name. -/
def dayBefore : InvestmentSnapshot where
  observedAt := "2026-08-30T10:00:00.000Z"
  complete := true
  inventoryComplete := true
  products := [{
    id := "hachshara_best_invest:P-1"
    provider := .hachshara_best_invest
    providerProductId := "P-1"
    kind := .investment
    name := "Savings plan"
    currency := "ILS"
    currentValuationId := some "hachshara_best_invest:P-1:valuation:2026-08-30"
    liquidity := ⟨.unknown, none, none⟩
    coverage := ⟨.partially, .unavailable, .complete, none⟩
    forecast := none
    reportSummaries := none }]
  valuations := [{
    id := "hachshara_best_invest:P-1:valuation:2026-08-30"
    productId := "hachshara_best_invest:P-1"
    asOf := some "2026-08-30"
    observedAt := "2026-08-30T10:00:00.000Z"
    amount := "990.00"
    currency := "ILS"
    provenance := none }]
  activities := []
  tracks := []
  executions := []

/-- A failure, and then the import of that version. -/
def importCalls : List InvestmentCall :=
  [⟨.recordFailure ⟨.error, "2026-08-30T06:00:00.000Z", .TIMEOUT⟩, []⟩,
    ⟨.applySnapshot dayBefore, []⟩]

/-- A product of the snapshot is stored under another name. -/
def storedOtherwise (snapshot : InvestmentSnapshot) (db : InvestmentDb) : Bool :=
  snapshot.products.any fun product => (db.records.rows.filterMap (·.asProduct)).any fun stored =>
    stored.id = product.id && stored.name ≠ product.name

/-- The policy is imported over its older version. -/
theorem applySnapshot_collected_policy :
    ∃ snapshot reasons, buildBestInvestSnapshot asciiHost exampleInput = .ok (snapshot, reasons) ∧
      storedOtherwise snapshot (reachedDb asciiHost .hachshara_best_invest importCalls) = true ∧
      TakesSnapshot asciiHost .hachshara_best_invest
        (reachedDb asciiHost .hachshara_best_invest importCalls) snapshot := by
  have hstored : (buildBestInvestSnapshot asciiHost exampleInput).toOption.any (fun result =>
      storedOtherwise result.1 (reachedDb asciiHost .hachshara_best_invest importCalls)) = true := by
    decide +kernel
  obtain ⟨⟨snapshot, reasons⟩, hbuilt, hstored⟩ := exists_ok_of_any hstored
  exact ⟨snapshot, reasons, hbuilt, hstored,
    applySnapshot_collected (.bestInvest hbuilt) importCalls⟩

end SimplefinBridge
