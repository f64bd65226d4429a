import SimplefinBridge.InvestmentClock
import SimplefinBridge.InvestmentFrames
import SimplefinBridge.InvestmentRelations

/-!
# The order of observations

Snapshots and failures reach the store in any order, with timestamps of any
precision.  Failures are compared with the last attempt as texts; complete
snapshots are compared with the last success as texts, or, for Hapoalim, with
everything known by the millisecond.  As long as these comparisons agree with
the instants and the last attempt (`InOrder`), the source moves forward in time
and exactly the older events are dropped (`observations_ordered`).
-/

namespace SimplefinBridge

open Statements Timestamps Transactional

/-! ## Observations -/

/-- What tells the store of the provider at a time. -/
inductive Observation
  | snapshot (input : InvestmentSnapshot)
  | failure (failure : InvestmentFailure)

namespace Observation

/-- The operation that records it. -/
def op : Observation → InvestmentOp
  | snapshot input => .applySnapshot input
  | failure report => .recordFailure report

/-- The time it is of. -/
def time : Observation → String
  | snapshot input => input.observedAt
  | failure report => report.attemptedAt

/-- The event is recorded as a failed attempt. -/
def isAttempt (provider : InvestmentProvider) : Observation → Bool
  | snapshot input => isIncomplete provider input
  | failure _ => true

end Observation

/-- A call, and which of its statements the database refuses. -/
structure ObservationCall where
  observation : Observation
  faults : List Bool := []

namespace ObservationCall

/-- The call of the store. -/
def call (c : ObservationCall) : InvestmentCall := ⟨c.observation.op, c.faults⟩

/-- The timestamp of the event, if the schema accepts it. -/
def stamp (c : ObservationCall) : Option Timestamp := Timestamp.parse c.observation.time

end ObservationCall

/-- When the source was last tried, as a time. -/
def InvestmentDb.lastAttempt (db : InvestmentDb) : Option Timestamp :=
  db.lastAttemptAt.bind Timestamp.parse

/-- When it last succeeded, as a time. -/
def InvestmentDb.lastSuccess (db : InvestmentDb) : Option Timestamp :=
  db.lastSuccessAt.bind Timestamp.parse

/-- The times that a Hapoalim source knows: of its last applied snapshot, its
last attempt and its last success. -/
def InvestmentDb.knownTimes (db : InvestmentDb) : List Timestamp :=
  [db.lastAppliedObservation, db.lastAttemptAt, db.lastSuccessAt].filterMap fun time =>
    time.bind Timestamp.parse

section
variable (host : Host) (provider : InvestmentProvider)

/-- The source has the event as its last attempt. -/
def ObservationCall.isAccepted (c : ObservationCall) (db : InvestmentDb) : Bool :=
  match c.call.result host provider db with
  | .ok _ s => s.store.lastAttemptAt = some c.observation.time
  | .error _ _ => false

/-- The store finds the event too old: it throws, or returns and has not
recorded it. -/
def ObservationCall.isStale (c : ObservationCall) (db : InvestmentDb) : Bool :=
  match c.call.result host provider db with
  | .ok _ s => s.store.lastAttemptAt ≠ some c.observation.time
  | .error e _ => e = .observationPredates

/-- A database, and the timestamps of the events it has accepted. -/
structure WatchedDb where
  db : InvestmentDb
  accepted : List Timestamp

/-- One call, with the times of all accepted observations. -/
def watchStep (w : WatchedDb) (c : ObservationCall) : WatchedDb where
  db := callStep host provider w.db c.call
  accepted := if c.isAccepted host provider w.db then c.stamp.toList ++ w.accepted else w.accepted

/-- A new database. -/
def freshWatch : WatchedDb := ⟨emptyInvestmentDb, []⟩

/-- What the order of events asks of a call. -/
structure Ordered (w : WatchedDb) (c : ObservationCall) (w' : WatchedDb) : Prop where
  attempt : ∀ last, w.db.lastAttempt = some last →
    ∃ next, w'.db.lastAttempt = some next ∧ last.instant ≤ next.instant
  success : ∀ last, w.db.lastSuccess = some last →
    ∃ next, w'.db.lastSuccess = some next ∧ last.instant ≤ next.instant
  /-- An older event alters nothing. -/
  older : ∀ t, c.stamp = some t → (∃ a ∈ w.accepted, t.instant < a.instant) →
    w'.db.sourceState = w.db.sourceState ∧ w'.db.records = w.db.records
  /-- An event that is not older is not refused. -/
  fresh : ∀ t, c.stamp = some t → (∀ a ∈ w.accepted, a.instant ≤ t.instant) →
    c.isStale host provider w.db = false

/-! ## The condition -/

/-- A failure: it does not spell the last attempt with more digits, nor, being
older, is spelled by it with more digits. -/
def AttemptInOrder (last t : Timestamp) : Prop :=
  (last.instant ≤ t.instant ∧ ¬ t.Refines last) ∨ (t.instant < last.instant ∧ ¬ last.Refines t)

/-- A complete snapshot, compared with the last success: if it is older than
the last attempt, its text is before the last success; if not, it does not
spell the last success with more digits. -/
def SnapshotInOrder (last : Timestamp) (success : Option Timestamp) (t : Timestamp) : Prop :=
  (last.instant ≤ t.instant ∧ ∀ s, success = some s → ¬ t.Refines s) ∨
    (t.instant < last.instant ∧ ∃ s, success = some s ∧ jsLess t.text s.text = true)

/-- A complete snapshot of Hapoalim, compared with all that the source knows:
if it is older than the last attempt, its milliseconds are fewer than those of
something known; if not, they are fewer than those of nothing known. -/
def MillisInOrder (known : List Timestamp) (last t : Timestamp) : Prop :=
  (last.instant ≤ t.instant ∧ ∀ k ∈ known, millis k ≤ millis t) ∨
    (t.instant < last.instant ∧ ∃ k ∈ known, millis t < millis k)

/-- The comparison that the store makes agrees with the instants. -/
def InOrder (w : WatchedDb) (c : ObservationCall) : Prop :=
  ∀ t last, c.stamp = some t → w.db.lastAttempt = some last →
    if c.observation.isAttempt provider = true then AttemptInOrder last t
    else if provider = .hapoalim then MillisInOrder w.db.knownTimes last t
    else SnapshotInOrder last w.db.lastSuccess t

end

/-! ## What can throw -/

section
variable {α β : Type}

/-- The computation does not find an observation too old. -/
def NeverPredates (result : Except InvestmentError α) : Prop :=
  result ≠ .error .observationPredates

/-- A result predates nothing. -/
theorem neverPredates_ok (a : α) : NeverPredates (.ok a) := nofun

/-- One step after another. -/
theorem NeverPredates.bind {first : Except InvestmentError α} {rest : α → Except InvestmentError β}
    (hfirst : NeverPredates first) (hrest : ∀ a, NeverPredates (rest a)) :
    NeverPredates (first >>= rest) := by
  cases hcase : first with
  | ok a => exact hrest a
  | error e =>
      intro h
      apply hfirst
      rw [hcase]
      exact congrArg Except.error (Except.error.inj h)

/-- A check with another error. -/
theorem neverPredates_require {p : Prop} [Decidable p] {e : InvestmentError}
    (he : e ≠ .observationPredates) : NeverPredates (require p e) := by
  unfold require
  split_ifs
  · exact neverPredates_ok _
  · exact fun h => he (Except.error.inj h)

/-- A loop of checks. -/
theorem neverPredates_forM {f : α → Except InvestmentError Unit} (hf : ∀ a, NeverPredates (f a))
    (items : List α) : NeverPredates (items.forM f) := by
  induction items with
  | nil => exact neverPredates_ok _
  | cons a items ih => exact (hf a).bind fun _ => ih

/-- Encoding an identifier predates nothing. -/
theorem neverPredates_part (value : String) : NeverPredates (part value) := by
  unfold part
  split_ifs
  · exact nofun
  · exact neverPredates_ok _

/-- Neither does checking its length. -/
theorem neverPredates_checked (value : String) : NeverPredates (checked value) := by
  unfold checked
  split_ifs
  · exact nofun
  · exact neverPredates_ok _

/-- Neither do the currencies of a snapshot, -/
theorem neverPredates_validateCurrency (snapshot : InvestmentSnapshot)
    (productId currency : String) :
    NeverPredates (validateCurrency snapshot productId currency) :=
  neverPredates_require (by decide)

/-- its products, -/
theorem neverPredates_validateProduct (provider : InvestmentProvider)
    (snapshot : InvestmentSnapshot) (product : InvestmentProduct) : NeverPredates (validateProduct provider snapshot product) := by
  have hidentity : NeverPredates (investmentProductId product.providerProductId provider) :=
    (neverPredates_part _).bind fun _ => neverPredates_checked _
  refine hidentity.bind fun identity => ?_
  exact (neverPredates_require (by decide)).bind fun _ =>
    (neverPredates_require (by decide)).bind fun _ => neverPredates_require (by decide)

/-- its valuations, -/
theorem neverPredates_validateValuation (provider : InvestmentProvider)
    (snapshot : InvestmentSnapshot) (row : InvestmentValuation) :
    NeverPredates (validateValuation provider snapshot row) := by
  unfold validateValuation
  cases row.provenance with
  | some archived => exact neverPredates_require (by decide)
  | none => exact (neverPredates_checked _).bind fun _ => neverPredates_require (by decide)

/-- its activities, -/
theorem neverPredates_validateActivity (row : InvestmentActivity) :
    NeverPredates (validateActivity row) := by
  have hidentity : NeverPredates (investmentActivityId row.productId row.sourceId) :=
    (neverPredates_part _).bind fun _ => neverPredates_checked _
  exact hidentity.bind fun _ => neverPredates_require (by decide)

/-- its executions, -/
theorem neverPredates_validateExecution (provider : InvestmentProvider)
    (snapshot : InvestmentSnapshot) (row : InvestmentExecution) :
    NeverPredates (validateExecution provider snapshot row) := by
  have hidentity : NeverPredates (investmentExecutionId row.productId row.sourceId) :=
    (neverPredates_part _).bind fun _ => neverPredates_checked _
  exact (neverPredates_require (by decide)).bind fun _ =>
    hidentity.bind fun _ => neverPredates_require (by decide)

/-- or all its relations. -/
theorem neverPredates_validateRelations (provider : InvestmentProvider)
    (snapshot : InvestmentSnapshot) : NeverPredates (validateRelations provider snapshot) := by
  refine (neverPredates_require (by decide)).bind fun _ => ?_
  refine (neverPredates_forM (neverPredates_validateProduct provider snapshot) _).bind fun _ => ?_
  refine (neverPredates_forM (fun _ => neverPredates_validateCurrency _ _ _) _).bind fun _ => ?_
  refine (neverPredates_forM (fun _ => neverPredates_validateCurrency _ _ _) _).bind fun _ => ?_
  refine (neverPredates_forM (fun _ => neverPredates_validateCurrency _ _ _) _).bind fun _ => ?_
  refine (neverPredates_forM (neverPredates_validateValuation provider snapshot) _).bind fun _ => ?_
  refine (neverPredates_forM neverPredates_validateActivity _).bind fun _ => ?_
  refine (neverPredates_forM (fun _ => neverPredates_require (by decide)) _).bind fun _ => ?_
  exact neverPredates_forM (neverPredates_validateExecution provider snapshot) _

variable {host : Host} {provider : InvestmentProvider} {db : InvestmentDb}

/-- The schema of the source row knows no order. -/
theorem neverPredates_parseSourceState (state : InvestmentSourceState) :
    NeverPredates (parseSourceState state) := by
  unfold parseSourceState
  split_ifs
  · exact neverPredates_ok _
  · exact nofun

/-- Reading the row predates nothing. -/
theorem neverPredates_readState : NeverPredates (db.readState provider) := by
  have hstored : NeverPredates (db.storedState provider) := by
    unfold InvestmentDb.storedState
    cases db.sourceState with
    | none => exact neverPredates_ok _
    | some state => exact neverPredates_parseSourceState state
  refine hstored.bind fun state => ?_
  split_ifs
  · exact nofun
  · exact neverPredates_ok _

/-- A failure is never refused as older. -/
theorem neverPredates_failed (report : InvestmentFailure) :
    NeverPredates (failed provider report db) := by
  refine neverPredates_readState.bind fun state => ?_
  split_ifs
  · exact (neverPredates_parseSourceState _).bind fun _ => neverPredates_ok _
  · exact neverPredates_ok _

/-- Looking for staleness refuses nothing. -/
theorem neverPredates_readStaleness (state : InvestmentSourceState) (observedAt : String) :
    NeverPredates (readStaleness provider state observedAt db) := by
  unfold readStaleness
  split_ifs
  · unfold InvestmentDb.lastApplied
    cases db.lastAppliedObservation with
    | none => exact nofun
    | some value =>
        dsimp only
        unfold parseTimestamp
        split_ifs
        · exact nofun
        · exact nofun
  · exact neverPredates_ok _

end

/-! ## What a call does -/

section
variable {host : Host} {provider : InvestmentProvider} {db db' : InvestmentDb}
  {state : InvestmentSourceState} {c : ObservationCall}

/-- What the store checks of an event. -/
def TakesEvent (provider : InvestmentProvider) (db : InvestmentDb) (state : InvestmentSourceState)
    (o : Observation) : Prop :=
  if o.isAttempt provider = true then followsLastAttempt state o.time = true
  else readStaleness provider state o.time db = .ok false ∧ followsLastSuccess provider state o.time

/-- What the store writes of an event that it takes. -/
structure Taken (provider : InvestmentProvider) (db db' : InvestmentDb) (time : String) : Prop where
  attempt : db'.lastAttemptAt = some time
  success : db'.lastSuccessAt = db.lastSuccessAt ∨ db'.lastSuccessAt = some time
  applied : db'.lastAppliedObservation = db.lastAppliedObservation ∨
    db'.lastAppliedObservation = normalizedObservation time
  readable : ∃ state', db'.readState provider = .ok state'

/-- An event is taken whole, or changes nothing. -/
def Effect (provider : InvestmentProvider) (db db' : InvestmentDb) (o : Observation) : Prop :=
  ∃ state, db.readState provider = .ok state ∧
    ((TakesEvent provider db state o ∧ Taken provider db db' o.time) ∨
      (¬ TakesEvent provider db state o ∧ db' = db))

/-- A good row of the provider is read. -/
theorem readState_of_stored (hstored : db.sourceState = some state)
    (hprovider : state.provider = provider) (haccepted : state.accepted = true) :
    db.readState provider = .ok state := by
  unfold InvestmentDb.readState InvestmentDb.storedState
  rw [hstored]
  change (parseSourceState state).bind _ = _
  rw [parseSourceState_ok.mpr ⟨haccepted, rfl⟩]
  change (if state.provider ≠ provider then _ else _) = _
  rw [if_neg (not_not.mpr hprovider)]

/-- What an accepted failure does to the times. -/
theorem effect_failed {report : InvestmentFailure} {o : Observation}
    (hattempt : o.isAttempt provider = true) (htime : o.time = report.attemptedAt)
    (h : failed provider report db = .ok db') : Effect provider db db' o := by
  obtain ⟨state, hread, hcases⟩ := failed_ok.mp h
  have htakes : TakesEvent provider db state o ↔
      followsLastAttempt state report.attemptedAt = true := by
    unfold TakesEvent
    rw [if_pos hattempt, htime]
  refine ⟨state, hread, ?_⟩
  rw [htakes, htime]
  rcases hcases with ⟨hfollows, haccepted, rfl⟩ | ⟨hfalse, rfl⟩
  · refine .inl ⟨hfollows, rfl, .inl ?_, .inl rfl, _,
      readState_of_stored rfl (readState_ok hread).1 haccepted⟩
    rw [lastSuccessAt_of_readState hread]
    rfl
  · refine .inr ⟨?_, rfl⟩
    rw [hfalse]
    exact Bool.false_ne_true

/-- What an accepted observation does to them. -/
theorem effect_observed {snapshot : InvestmentSnapshot} {o : Observation}
    {summary : InvestmentImportSummary} (hattempt : o.isAttempt provider = false)
    (htime : o.time = snapshot.observedAt)
    (h : observed host provider snapshot db = .ok (summary, db')) : Effect provider db db' o := by
  obtain ⟨state, stale, hread, hstale, hcases⟩ := observed_ok.mp h
  have htakes : TakesEvent provider db state o ↔
      readStaleness provider state snapshot.observedAt db = .ok false ∧
        followsLastSuccess provider state snapshot.observedAt := by
    unfold TakesEvent
    rw [if_neg (by rw [hattempt]; exact Bool.false_ne_true), htime]
  refine ⟨state, hread, ?_⟩
  rw [htakes, htime]
  rcases hcases with ⟨rfl, -, rfl⟩ | ⟨rfl, hfollows, haccepted, -, rfl⟩
  · refine .inr ⟨?_, rfl⟩
    rw [hstale]
    rintro ⟨hfresh, -⟩
    cases hfresh
  · refine .inl ⟨⟨hstale, hfollows⟩, rfl, ?_, ?_, _,
      readState_of_stored rfl (readState_ok hread).1 haccepted⟩
    · rw [lastSuccessAt_of_readState hread]
      change (appliedState provider state snapshot).lastSuccessAt = _ ∨
        (appliedState provider state snapshot).lastSuccessAt = _
      unfold appliedState
      dsimp only
      split_ifs
      · exact .inr rfl
      · exact .inl rfl
    · unfold InvestmentDb.afterSnapshot
      dsimp only
      split_ifs
      · exact .inr rfl
      · exact .inl rfl

/-- Trimming leaves a snapshot as complete as it was. -/
theorem isIncomplete_trimmed (input : InvestmentSnapshot) :
    isIncomplete provider input.trimmed = isIncomplete provider input := rfl

/-- **An event that returns.** -/
theorem effect_of_returns {s : Session InvestmentDb} {answer : Option InvestmentImportSummary}
    (h : c.call.result host provider db = .ok answer s) :
    Effect provider db s.store c.observation := by
  obtain ⟨o, faults⟩ := c
  cases o with
  | failure report =>
      obtain ⟨u, mid, hrun, hlast⟩ := bind_ok.mp h
      obtain ⟨-, rfl⟩ := pure_ok.mp hlast
      have hreturns := (computes_recordFailure provider report).returns _ _ _ hrun
      change (failed provider report db).map _ = _ at hreturns
      cases hfailed : failed provider report db with
      | error e =>
          rw [hfailed] at hreturns
          cases hreturns
      | ok after =>
          rw [hfailed] at hreturns
          cases hreturns
          exact effect_failed rfl rfl hfailed
  | snapshot input =>
      obtain ⟨summary, -, hrun⟩ := perform_applySnapshot_ok host provider h
      obtain ⟨snapshot, hparse, hcases⟩ := imported_ok.mp
        ((computes_applySnapshot host provider input).returns _ _ _ hrun)
      obtain ⟨rfl, -⟩ := parseSnapshot_ok hparse
      rw [isIncomplete_trimmed] at hcases
      rcases hcases with ⟨hincomplete, -, hfailed⟩ | ⟨hcomplete, -, hobserved⟩
      · have htime : (Observation.snapshot input).time =
            (incompleteResponse input.trimmed).attemptedAt := rfl
        exact effect_failed hincomplete htime hfailed
      · have htime : (Observation.snapshot input).time = input.trimmed.observedAt := rfl
        exact effect_observed hcomplete htime hobserved

end

section
variable {host : Host} {provider : InvestmentProvider} {db : InvestmentDb}
  {state : InvestmentSourceState} {c : ObservationCall}

/-- One of two steps has thrown. -/
theorem except_bind_error {α β : Type} {first : Except InvestmentError α}
    {rest : α → Except InvestmentError β} {e : InvestmentError} (h : (first >>= rest) = .error e) :
    first = .error e ∨ ∃ a, first = .ok a ∧ rest a = .error e := by
  cases hfirst : first with
  | error e' =>
      rw [hfirst] at h
      exact .inl (congrArg Except.error (Except.error.inj h))
  | ok a =>
      rw [hfirst] at h
      exact .inr ⟨a, rfl, h⟩

/-- What is made of a result predates nothing either. -/
theorem NeverPredates.map {α β : Type} {result : Except InvestmentError α}
    (h : NeverPredates result) (f : α → β) : NeverPredates (result.map f) := by
  cases hresult : result with
  | ok a => exact neverPredates_ok _
  | error e =>
      intro hmap
      apply h
      rw [hresult]
      exact congrArg Except.error (Except.error.inj hmap)

/-- An observation found too old is before the last success. -/
theorem observed_predates {snapshot : InvestmentSnapshot}
    (h : observed host provider snapshot db = .error .observationPredates) :
    ∃ state, db.readState provider = .ok state ∧
      ¬ followsLastSuccess provider state snapshot.observedAt := by
  unfold observed at h
  rcases except_bind_error h with hread | ⟨state, hread, h⟩
  · exact absurd hread neverPredates_readState
  rcases except_bind_error h with hstale | ⟨stale, hstale, h⟩
  · exact absurd hstale (neverPredates_readStaleness _ _)
  refine ⟨state, hread, ?_⟩
  intro hfollows
  cases stale with
  | true => cases h
  | false =>
      rw [if_neg Bool.false_ne_true, require_ok.mpr hfollows] at h
      have hwritten : NeverPredates (written host provider snapshot state db) :=
        (neverPredates_parseSourceState _).bind fun _ => neverPredates_ok _
      exact hwritten h

/-- A snapshot is refused as older for one reason only. -/
theorem imported_predates {input : InvestmentSnapshot}
    (h : imported host provider input db = .error .observationPredates) :
    isIncomplete provider input = false ∧ ∃ state, db.readState provider = .ok state ∧
      ¬ followsLastSuccess provider state input.observedAt := by
  unfold imported at h
  rcases except_bind_error h with hparse | ⟨snapshot, hparse, h⟩
  · unfold parseSnapshot at hparse
    split_ifs at hparse
    cases hparse
  obtain ⟨rfl, -⟩ := parseSnapshot_ok hparse
  rw [isIncomplete_trimmed] at h
  by_cases hincomplete : isIncomplete provider input = true
  · rw [if_pos hincomplete] at h
    exact absurd h ((neverPredates_failed _).map _)
  · rw [if_neg hincomplete] at h
    rcases except_bind_error h with hvalid | ⟨u, -, h⟩
    · exact absurd hvalid (neverPredates_validateRelations _ _)
    · obtain ⟨state, hread, hpredates⟩ := observed_predates h
      have htime : input.trimmed.observedAt = input.observedAt := rfl
      rw [htime] at hpredates
      exact ⟨Bool.eq_false_iff.mpr hincomplete, state, hread, hpredates⟩

/-- What the operation computes. -/
def Observation.result (host : Host) (provider : InvestmentProvider) (db : InvestmentDb) :
    Observation → Except InvestmentError (Option InvestmentImportSummary × InvestmentDb)
  | snapshot input => (imported host provider input db).map fun p => (some p.1, p.2)
  | failure report => (failed provider report db).map fun after => (none, after)

/-- What an observation does to the database. -/
theorem computes_perform (o : Observation) :
    Computes (o.op.perform host provider) fun db => o.result host provider db := by
  cases o with
  | snapshot input =>
      refine ((computes_applySnapshot host provider input).bind fun summary =>
        computes_pure (some summary)).congr ?_
      intro db
      change _ = (imported host provider input db).map _
      cases imported host provider input db with
      | ok p => rfl
      | error e => rfl
  | failure report =>
      refine ((computes_recordFailure provider report).bind fun _ =>
        computes_pure (none : Option InvestmentImportSummary)).congr ?_
      intro db
      change _ = (failed provider report db).map _
      cases failed provider report db with
      | ok after => rfl
      | error e => rfl

/-- An observation that is refused has changed nothing. -/
theorem atomic_perform (o : Observation) : Atomic (o.op.perform host provider) := by
  cases o with
  | snapshot input => exact (atomic_applySnapshot host provider input).map fun p => some p
  | failure report =>
      have hatomic : Atomic (recordFailure provider report) := atomic_recordFailure provider report
      exact hatomic.map fun _ => none

/-- **An event that throws** changes nothing; it is found too old only when the
store does not take it. -/
theorem unchanged_of_throws {s : Session InvestmentDb} {e : InvestmentError}
    (h : c.call.result host provider db = .error e s) :
    s.store = db ∧ (e = .observationPredates → ∃ state, db.readState provider = .ok state ∧
      ¬ TakesEvent provider db state c.observation) := by
  refine ⟨atomic_perform c.observation _ _ _ h, ?_⟩
  rintro rfl
  obtain ⟨o, faults⟩ := c
  rcases (computes_perform o).fails _ _ _ h with hrefused | hthrew
  · cases hrefused
  change o.result host provider db = _ at hthrew
  cases o with
  | failure report => exact absurd hthrew ((neverPredates_failed _).map _)
  | snapshot input =>
      have himported : imported host provider input db = .error .observationPredates := by
        by_contra hnever
        exact (NeverPredates.map hnever _) hthrew
      obtain ⟨hcomplete, state, hread, hpredates⟩ := imported_predates himported
      refine ⟨state, hread, ?_⟩
      unfold TakesEvent
      change ¬ if isIncomplete provider input = true then _ else _
      rw [hcomplete, if_neg Bool.false_ne_true]
      exact fun htakes => hpredates htakes.2

end

/-! ## The invariant -/

/-- Everything the store compares with is an accepted event, and the last
attempt is the newest of them. -/
structure AcceptedKnown (provider : InvestmentProvider) (w : WatchedDb) : Prop where
  readable : ∃ state, w.db.readState provider = .ok state
  started : w.db.lastAttemptAt = none → w.accepted = []
  newest : ∀ text, w.db.lastAttemptAt = some text →
    ∃ last ∈ w.accepted, last.text = text ∧ ∀ a ∈ w.accepted, a.instant ≤ last.instant
  success : ∀ text, w.db.lastSuccessAt = some text → ∃ a ∈ w.accepted, a.text = text
  applied : ∀ text, w.db.lastAppliedObservation = some text →
    isTimestamp text = true ∧ w.accepted ≠ []

/-- Nothing has been accepted yet. -/
theorem acceptedKnown_fresh (provider : InvestmentProvider) :
    AcceptedKnown provider freshWatch := by
  refine ⟨⟨initialState provider, ?_⟩, fun _ => rfl, nofun, nofun, nofun⟩
  exact if_neg (not_not.mpr rfl)

section
variable {provider : InvestmentProvider} {w : WatchedDb} {c : ObservationCall}
  {state : InvestmentSourceState} {t last : Timestamp}

/-- Where the texts are in order, they compare like the times. -/
theorem AttemptInOrder.jsLess_iff (h : AttemptInOrder last t) :
    jsLess t.text last.text = true ↔ t.instant < last.instant := by
  rw [jsLess_text]
  rcases h with ⟨hle, hrefines⟩ | ⟨hlt, hrefines⟩
  · constructor
    · rintro (hfiner | ⟨hlt, -⟩)
      · exact absurd hfiner hrefines
      · exact hlt
    · intro hlt
      exact absurd hle (not_le.mpr hlt)
  · exact ⟨fun _ => hlt, fun _ => .inr ⟨hlt, hrefines⟩⟩

/-- A failure is taken unless it is older. -/
theorem followsLastAttempt_iff (h : state.lastAttemptAt = some last.text)
    (horder : AttemptInOrder last t) :
    followsLastAttempt state t.text = true ↔ last.instant ≤ t.instant := by
  unfold followsLastAttempt
  rw [h, Option.all_some, Bool.not_eq_true', ← not_lt, ← horder.jsLess_iff, Bool.not_eq_true]

/-- A snapshot is compared with the text of the last success. -/
theorem followsLastSuccess_iff (hprovider : provider ≠ .hapoalim) {text : String} :
    followsLastSuccess provider state text ↔
      ∀ s, state.lastSuccessAt = some s → jsLess text s = false := by
  unfold followsLastSuccess
  cases hsuccess : state.lastSuccessAt with
  | none => simp
  | some s => simp [hprovider]

/-- Successes are no newer than the last attempt. -/
theorem SnapshotInOrder.fresh_iff {success : Option Timestamp}
    (h : SnapshotInOrder last success t) (hle : ∀ s, success = some s → s.instant ≤ last.instant) :
    (∀ s, success = some s → jsLess t.text s.text = false) ↔ last.instant ≤ t.instant := by
  rcases h with ⟨hlast, hrefines⟩ | ⟨hlt, s, hs, hless⟩
  · refine ⟨fun _ => hlast, fun _ s hs => ?_⟩
    rw [Bool.eq_false_iff, Ne, jsLess_text]
    rintro (hfiner | ⟨hbefore, -⟩)
    · exact hrefines s hs hfiner
    · exact absurd ((hle s hs).trans hlast) (not_le.mpr hbefore)
  · constructor
    · intro hfresh
      rw [hfresh s hs] at hless
      cases hless
    · intro hlast
      exact absurd hlast (not_le.mpr hlt)

/-- The milliseconds of a stored time. -/
theorem bind_dateParse (time : Option String) :
    time.bind dateParse = (time.bind Timestamp.parse).map millis := by
  cases time with
  | none => rfl
  | some text => rfl

/-- What Hapoalim compares with, by the millisecond. -/
theorem readStaleness_iff (hknown : AcceptedKnown provider w) (hprovider : provider = .hapoalim)
    (hread : w.db.readState provider = .ok state) :
    readStaleness provider state t.text w.db = .ok false ↔
      ∀ k ∈ w.db.knownTimes, millis k ≤ millis t := by
  have happlied : w.db.lastApplied = .ok w.db.lastAppliedObservation := by
    unfold InvestmentDb.lastApplied
    cases hstored : w.db.lastAppliedObservation with
    | none => rfl
    | some text =>
        dsimp only
        unfold parseTimestamp
        rw [if_pos (hknown.applied text hstored).1]
        rfl
  have hstale : readStaleness provider state t.text w.db =
      .ok (isStaleObservation w.db.lastAppliedObservation state t.text) := by
    unfold readStaleness
    rw [if_pos hprovider, happlied]
    rfl
  have hobservations : knownObservations w.db.lastAppliedObservation state =
      w.db.knownTimes.map millis := by
    unfold knownObservations InvestmentDb.knownTimes
    rw [← lastAttemptAt_of_readState hread, ← lastSuccessAt_of_readState hread,
      List.map_filterMap]
    exact congrArg (List.filterMap · _) (funext bind_dateParse)
  rw [hstale, Except.ok.injEq, isStaleObservation_eq_false (dateParse_text t), hobservations,
    List.forall_mem_map]

/-- Where the milliseconds are in order, they compare like the times. -/
theorem MillisInOrder.fresh_iff {known : List Timestamp} (h : MillisInOrder known last t) :
    (∀ k ∈ known, millis k ≤ millis t) ↔ last.instant ≤ t.instant := by
  rcases h with ⟨hlast, hfresh⟩ | ⟨hlt, k, hk, hless⟩
  · exact ⟨fun _ => hlast, fun _ => hfresh⟩
  · constructor
    · intro hfresh
      exact absurd (hfresh k hk) (not_le.mpr hless)
    · intro hlast
      exact absurd hlast (not_le.mpr hlt)

/-- A store that has accepted nothing takes everything. -/
theorem takes_of_fresh (hknown : AcceptedKnown provider w)
    (hread : w.db.readState provider = .ok state) (hnone : w.db.lastAttemptAt = none)
    (o : Observation) : TakesEvent provider w.db state o := by
  have hattempt := lastAttemptAt_of_readState hread
  have hempty := hknown.started hnone
  have hsuccess : state.lastSuccessAt = none := by
    rw [← lastSuccessAt_of_readState hread]
    cases hstored : w.db.lastSuccessAt with
    | none => rfl
    | some text =>
        obtain ⟨a, ha, -⟩ := hknown.success text hstored
        rw [hempty] at ha
        cases ha
  have happlied : w.db.lastAppliedObservation = none := by
    cases hstored : w.db.lastAppliedObservation with
    | none => rfl
    | some text =>
        exact absurd hempty (hknown.applied text hstored).2
  rw [hnone] at hattempt
  unfold TakesEvent
  split_ifs
  · unfold followsLastAttempt
    rw [← hattempt]
    rfl
  · constructor
    · unfold readStaleness InvestmentDb.lastApplied isStaleObservation newestObservation
      rw [happlied, ← hattempt, hsuccess]
      split_ifs
      · rfl
      · rfl
    · right
      rw [hsuccess]
      rfl

/-- **The store takes exactly the events that are not older**, while its
comparisons agree with the instants. -/
theorem takes_iff (hknown : AcceptedKnown provider w) (horder : InOrder provider w c)
    (ht : c.observation.time = t.text) (hread : w.db.readState provider = .ok state) :
    TakesEvent provider w.db state c.observation ↔ ∀ a ∈ w.accepted, a.instant ≤ t.instant := by
  cases hattempt : w.db.lastAttemptAt with
  | none =>
      rw [hknown.started hattempt]
      exact ⟨fun _ => nofun, fun _ => takes_of_fresh hknown hread hattempt _⟩
  | some text =>
      obtain ⟨last, hmem, rfl, hnewest⟩ := hknown.newest text hattempt
      have hlast : w.db.lastAttempt = some last := by
        unfold InvestmentDb.lastAttempt
        rw [hattempt, Option.bind_some, Timestamp.parse_text]
      have hstamp : c.stamp = some t := by
        unfold ObservationCall.stamp
        rw [ht, Timestamp.parse_text]
      have hagrees := horder t last hstamp hlast
      have hall : (∀ a ∈ w.accepted, a.instant ≤ t.instant) ↔ last.instant ≤ t.instant :=
        ⟨fun h => h last hmem, fun h a ha => (hnewest a ha).trans h⟩
      rw [hall]
      unfold TakesEvent
      rw [ht]
      by_cases hattempted : c.observation.isAttempt provider = true
      · rw [if_pos hattempted] at hagrees ⊢
        exact followsLastAttempt_iff ((lastAttemptAt_of_readState hread).symm.trans hattempt)
          hagrees
      · rw [if_neg hattempted] at hagrees ⊢
        by_cases hhapoalim : provider = .hapoalim
        · rw [if_pos hhapoalim] at hagrees
          rw [readStaleness_iff hknown hhapoalim hread, hagrees.fresh_iff]
          exact and_iff_left (.inl hhapoalim)
        · rw [if_neg hhapoalim] at hagrees
          have hfresh : readStaleness provider state t.text w.db = .ok false := by
            unfold readStaleness
            rw [if_neg hhapoalim]
          rw [and_iff_right hfresh, followsLastSuccess_iff hhapoalim,
            ← lastSuccessAt_of_readState hread]
          have hsuccess : ∀ s, w.db.lastSuccessAt = some s → ∃ u ∈ w.accepted, u.text = s :=
            hknown.success
          rw [← SnapshotInOrder.fresh_iff hagrees ?_]
          · unfold InvestmentDb.lastSuccess
            constructor
            · intro h u hu
              obtain ⟨s, hs, hparsed⟩ := Option.bind_eq_some_iff.mp hu
              rw [Timestamp.parse_eq_some_iff.mp hparsed]
              exact h s hs
            · intro h s hs
              obtain ⟨u, -, rfl⟩ := hsuccess s hs
              exact h u (by rw [hs, Option.bind_some, Timestamp.parse_text])
          · intro u hu
            obtain ⟨s, hs, hparsed⟩ := Option.bind_eq_some_iff.mp hu
            obtain ⟨a, ha, rfl⟩ := hsuccess s hs
            rw [Timestamp.parse_text] at hparsed
            rw [← Option.some.inj hparsed]
            exact hnewest a ha

end

/-! ## Runs -/

section
variable {host : Host} {provider : InvestmentProvider} {w : WatchedDb} {c : ObservationCall}
  {t : Timestamp}

/-- The time of an observation, if it has one. -/
theorem stamp_eq_some : c.stamp = some t ↔ t.text = c.observation.time :=
  Timestamp.parse_eq_some_iff

/-- An event that changes nothing, because it was older or for another reason
than its age. -/
theorem ordered_of_unchanged (hsame : callStep host provider w.db c.call = w.db)
    (hfresh : ∀ t, c.stamp = some t → (∀ a ∈ w.accepted, a.instant ≤ t.instant) →
      c.isStale host provider w.db = false) :
    Ordered host provider w c (watchStep host provider w c) := by
  have hdb : (watchStep host provider w c).db = w.db := hsame
  refine ⟨?_, ?_, ?_, hfresh⟩
  · rw [hdb]
    exact fun last hlast => ⟨last, hlast, le_rfl⟩
  · rw [hdb]
    exact fun last hlast => ⟨last, hlast, le_rfl⟩
  · rw [hdb]
    exact fun _ _ _ => ⟨rfl, rfl⟩

/-- A store that changes nothing and accepts nothing keeps what it knows. -/
theorem AcceptedKnown.of_unchanged (hknown : AcceptedKnown provider w)
    (hsame : callStep host provider w.db c.call = w.db)
    (hrefused : c.isAccepted host provider w.db = false) :
    AcceptedKnown provider (watchStep host provider w c) := by
  have hstep : watchStep host provider w c = w := by
    unfold watchStep
    rw [hsame, hrefused, if_neg Bool.false_ne_true]
  rw [hstep]
  exact hknown

/-- A store that takes an event knows it. -/
theorem AcceptedKnown.of_taken (hknown : AcceptedKnown provider w) {db' : InvestmentDb}
    (htaken : Taken provider w.db db' t.text) (hnewest : ∀ a ∈ w.accepted, a.instant ≤ t.instant) :
    AcceptedKnown provider ⟨db', t :: w.accepted⟩ where
  readable := htaken.readable
  started := by
    intro hnone
    rw [htaken.attempt] at hnone
    cases hnone
  newest := by
    intro text htext
    rw [htaken.attempt] at htext
    refine ⟨t, List.mem_cons_self, Option.some.inj htext, ?_⟩
    intro a ha
    rcases List.mem_cons.mp ha with rfl | ha
    · exact le_rfl
    · exact hnewest a ha
  success := by
    intro text htext
    rcases htaken.success with hsame | hnew
    · rw [hsame] at htext
      obtain ⟨a, ha, hatext⟩ := hknown.success text htext
      exact ⟨a, List.mem_cons_of_mem t ha, hatext⟩
    · rw [hnew] at htext
      exact ⟨t, List.mem_cons_self, Option.some.inj htext⟩
  applied := by
    intro text htext
    rcases htaken.applied with hsame | hnew
    · rw [hsame] at htext
      exact ⟨(hknown.applied text htext).1, List.cons_ne_nil _ _⟩
    · obtain ⟨u, hu, -⟩ := toIsoString_millis t
      unfold normalizedObservation at hnew
      rw [hnew, dateParse_text, Option.map_some, hu] at htext
      exact ⟨isTimestamp_iff.mpr ⟨u, Option.some.inj htext⟩, List.cons_ne_nil _ _⟩

/-- A known time of the store is no newer than an event that is not older. -/
theorem instant_le_of_known {known : Option String} {last : Timestamp}
    (hknown : ∀ text, known = some text → ∃ a ∈ w.accepted, a.text = text)
    (hnewest : ∀ a ∈ w.accepted, a.instant ≤ t.instant)
    (hlast : known.bind Timestamp.parse = some last) : last.instant ≤ t.instant := by
  obtain ⟨text, htext, hparsed⟩ := Option.bind_eq_some_iff.mp hlast
  obtain ⟨a, ha, rfl⟩ := hknown text htext
  rw [Timestamp.parse_text] at hparsed
  rw [← Option.some.inj hparsed]
  exact hnewest a ha

/-- **One call.** -/
theorem ordered_watchStep (hknown : AcceptedKnown provider w)
    (htime : isTimestamp c.observation.time = true) (horder : InOrder provider w c) :
    AcceptedKnown provider (watchStep host provider w c) ∧
      Ordered host provider w c (watchStep host provider w c) := by
  obtain ⟨t, ht⟩ := isTimestamp_iff.mp htime
  have hstamp : c.stamp = some t := stamp_eq_some.mpr ht
  have hunique : ∀ u, c.stamp = some u → u = t := by
    intro u hu
    exact Option.some.inj (hu.symm.trans hstamp)
  obtain ⟨state, hread⟩ := hknown.readable
  have htakes := takes_iff hknown horder ht.symm hread
  cases hresult : c.call.result host provider w.db with
  | error e s =>
      obtain ⟨hsame, hpredates⟩ := unchanged_of_throws hresult
      have hstep : callStep host provider w.db c.call = w.db := by
        unfold callStep
        rw [hresult]
        exact hsame
      have hrefused : c.isAccepted host provider w.db = false := by
        unfold ObservationCall.isAccepted
        rw [hresult]
      refine ⟨hknown.of_unchanged hstep hrefused, ordered_of_unchanged hstep ?_⟩
      intro u hu hfresh
      obtain rfl := hunique u hu
      unfold ObservationCall.isStale
      rw [hresult]
      apply decide_eq_false
      intro he
      obtain ⟨state', hread', hnot⟩ := hpredates he
      obtain rfl := Except.ok.inj (hread.symm.trans hread')
      exact hnot (htakes.mpr hfresh)
  | ok answer s =>
      have hstep : callStep host provider w.db c.call = s.store := by
        unfold callStep
        rw [hresult]
        rfl
      obtain ⟨state', hread', hcases⟩ := effect_of_returns hresult
      obtain rfl := Except.ok.inj (hread.symm.trans hread')
      rcases hcases with ⟨htook, htaken⟩ | ⟨hnot, hsame⟩
      · -- the event is taken, and is not older
        have hnewest := htakes.mp htook
        have haccepted : c.isAccepted host provider w.db = true := by
          unfold ObservationCall.isAccepted
          rw [hresult]
          exact decide_eq_true htaken.attempt
        have hwatch : watchStep host provider w c = ⟨s.store, t :: w.accepted⟩ := by
          unfold watchStep
          rw [hstep, haccepted, if_pos rfl, hstamp]
          rfl
        rw [← ht] at htaken
        rw [hwatch]
        refine ⟨hknown.of_taken htaken hnewest, ?_, ?_, ?_, ?_⟩
        · intro last hlast
          refine ⟨t, ?_, ?_⟩
          · change s.store.lastAttemptAt.bind Timestamp.parse = _
            rw [htaken.attempt, Option.bind_some, Timestamp.parse_text]
          · refine instant_le_of_known ?_ hnewest hlast
            intro text htext
            obtain ⟨a, ha, hatext, -⟩ := hknown.newest text htext
            exact ⟨a, ha, hatext⟩
        · intro last hlast
          rcases htaken.success with hkept | hnew
          · refine ⟨last, ?_, le_rfl⟩
            change s.store.lastSuccessAt.bind Timestamp.parse = _
            rw [hkept]
            exact hlast
          · refine ⟨t, ?_, instant_le_of_known hknown.success hnewest hlast⟩
            change s.store.lastSuccessAt.bind Timestamp.parse = _
            rw [hnew, Option.bind_some, Timestamp.parse_text]
        · rintro u hu ⟨a, ha, hlt⟩
          obtain rfl := hunique u hu
          exact absurd (hnewest a ha) (not_le.mpr hlt)
        · intro u _ _
          unfold ObservationCall.isStale
          rw [hresult]
          apply decide_eq_false
          rw [not_not, htaken.attempt, ht]
      · -- the event is older, and nothing happens
        rw [hsame] at hstep
        have hrefused : c.isAccepted host provider w.db = false := by
          unfold ObservationCall.isAccepted
          rw [hresult]
          apply decide_eq_false
          intro hattempt
          rw [hsame, ← ht] at hattempt
          obtain ⟨last, hlast, hltext, hnewest⟩ := hknown.newest _ hattempt
          have hparsed := Timestamp.parse_text last
          rw [hltext, Timestamp.parse_text] at hparsed
          obtain rfl := Option.some.inj hparsed
          exact hnot (htakes.mpr hnewest)
        refine ⟨hknown.of_unchanged hstep hrefused, ordered_of_unchanged hstep ?_⟩
        intro u hu hfresh
        obtain rfl := hunique u hu
        exact absurd (htakes.mpr hfresh) hnot

end

/-- **Observations are ordered.**  In every run of snapshots and failures with
accepted timestamps whose comparisons agree with the instants, the last attempt
and the last success never move back, an event older than an accepted one
alters nothing, and one that is not older than any is not refused as stale. -/
theorem observations_ordered (host : Host) (provider : InvestmentProvider)
    (calls : List ObservationCall) (htimes : ∀ c ∈ calls, isTimestamp c.observation.time = true)
    (horder : Runs.Along (watchStep host provider) (fun w c _ => InOrder provider w c) freshWatch
      calls) :
    Runs.Along (watchStep host provider) (Ordered host provider) freshWatch calls := by
  refine (horder.and_inputs htimes).of_invariant (acceptedKnown_fresh provider) ?_
  rintro w c hknown ⟨htime, hinOrder⟩
  exact ordered_watchStep hknown htime hinOrder

/-- In an ordered step the last attempt does not move back. -/
theorem Ordered.le {host : Host} {provider : InvestmentProvider} {w w' : WatchedDb}
    {c : ObservationCall} (h : Ordered host provider w c w') :
    ∀ last ∈ w.db.lastAttempt, ∀ next ∈ w'.db.lastAttempt, last.instant ≤ next.instant := by
  intro last hlast next hnext
  obtain ⟨later, hlater, hle⟩ := h.attempt last hlast
  rw [Option.mem_def, hlater] at hnext
  rw [← Option.some.inj hnext]
  exact hle

/-- It takes an observation that is not older than any before. -/
theorem Ordered.takes {host : Host} {provider : InvestmentProvider} {w w' : WatchedDb}
    {c : ObservationCall} (h : Ordered host provider w c w') :
    ∀ t ∈ c.stamp, (∀ a ∈ w.accepted, a.instant ≤ t.instant) →
      c.isStale host provider w.db = false :=
  h.fresh

/-- Two failures of one second, the second half a second before the first and
written without a fraction. -/
def coarseFailures : List ObservationCall :=
  [⟨.failure ⟨.auth_required, "2026-09-01T06:00:00.500Z", .OTP_REQUIRED⟩, []⟩,
    ⟨.failure ⟨.error, "2026-09-01T06:00:00Z", .TIMEOUT⟩, []⟩]

/-- A pension that is seen on the first, fails on the third, and whose snapshot
of the second arrives last. -/
def lateSnapshot : List ObservationCall :=
  [⟨.snapshot (pensionSnapshot "2026-09-01T06:00:00.000Z" "ILS" []), []⟩,
    ⟨.failure ⟨.auth_required, "2026-09-03T06:00:00.000Z", .OTP_REQUIRED⟩, []⟩,
    ⟨.snapshot (pensionSnapshot "2026-09-02T06:00:00.000Z" "ILS" []), []⟩]

/-- A failure of Hapoalim twelve milliseconds into a second, which is read as
the millisecond 123, and a snapshot, without products, of the millisecond 50. -/
def longFraction : List ObservationCall :=
  [⟨.failure ⟨.error, "2026-09-01T06:00:00.0123456789Z", .TIMEOUT⟩, []⟩,
    ⟨.snapshot { securitiesArchive with
      observedAt := "2026-09-01T06:00:00.050Z", products := [], valuations := [] }, []⟩]

/-- Failures spelled differently, a late snapshot and a long fraction are each
taken or refused out of order. -/
theorem observations_disordered :
    (¬ Runs.Along (watchStep asciiHost .clal) (Ordered asciiHost .clal) freshWatch
      coarseFailures) ∧
    (¬ Runs.Along (watchStep asciiHost .clal) (Ordered asciiHost .clal) freshWatch
      lateSnapshot) ∧
    ¬ Runs.Along (watchStep asciiHost .hapoalim) (Ordered asciiHost .hapoalim) freshWatch
      longFraction := by
  refine ⟨?_, ?_, ?_⟩
  · rintro ⟨-, hsecond, -⟩
    exact absurd hsecond.le (by decide +kernel)
  · rintro ⟨-, -, hthird, -⟩
    exact absurd hthird.le (by decide +kernel)
  · rintro ⟨-, hsecond, -⟩
    exact absurd hsecond.takes (by decide +kernel)

/-! The condition can be evaluated. -/

instance (last t : Timestamp) : Decidable (AttemptInOrder last t) := by
  unfold AttemptInOrder
  infer_instance

instance (last : Timestamp) (success : Option Timestamp) (t : Timestamp) :
    Decidable (SnapshotInOrder last success t) :=
  decidable_of_iff ((last.instant ≤ t.instant ∧ ∀ s ∈ success, ¬ t.Refines s) ∨
    (t.instant < last.instant ∧ ∃ s ∈ success, jsLess t.text s.text = true)) Iff.rfl

instance (known : List Timestamp) (last t : Timestamp) : Decidable (MillisInOrder known last t) := by
  unfold MillisInOrder
  infer_instance

instance (provider : InvestmentProvider) (w : WatchedDb) (c : ObservationCall) :
    Decidable (InOrder provider w c) :=
  decidable_of_iff (∀ t ∈ c.stamp, ∀ last ∈ w.db.lastAttempt,
    if c.observation.isAttempt provider = true then AttemptInOrder last t
    else if provider = .hapoalim then MillisInOrder w.db.knownTimes last t
    else SnapshotInOrder last w.db.lastSuccess t)
    ⟨fun h t last ht hlast => h t ht last hlast, fun h t ht last hlast => h t last ht hlast⟩

/-- A pension that is seen, fails and is seen again, and a failure of between
that arrives last. -/
theorem observations_ordered_failures :
    Runs.Along (watchStep asciiHost .clal) (Ordered asciiHost .clal) freshWatch
      [⟨.snapshot (pensionSnapshot "2026-09-01T06:00:00Z" "ILS" []), []⟩,
        ⟨.failure ⟨.auth_required, "2026-09-01T07:00:00.000Z", .OTP_REQUIRED⟩, []⟩,
        ⟨.snapshot (pensionSnapshot "2026-09-02T06:00:00.5Z" "ILS" []), []⟩,
        ⟨.failure ⟨.error, "2026-09-01T08:00:00.000Z", .TIMEOUT⟩, []⟩] :=
  observations_ordered asciiHost .clal _ (by decide +kernel) (by decide +kernel)

end SimplefinBridge
