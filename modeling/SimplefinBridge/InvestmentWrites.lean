import SimplefinBridge.InvestmentStore

/-!
# What the writing operations of the investment store compute

`recordFailure`, `applySnapshot` and `seedArchive` are programs of statements.
Here each gets the pure function it computes (`failed`, `observed`, `seeded`),
and what that function does is said once, case by case.  All three leave the
store alone when they throw.
-/

namespace SimplefinBridge

open Statements Transactional

section
variable (host : Host) (provider : InvestmentProvider)

/-! ## One record -/

/-- Write a row over the record found under its key. -/
def upsertedOver (found : Option InvestmentRecord) (row : InvestmentRecord) (observedAt : String)
    (db : InvestmentDb) : UpsertOutcome × InvestmentDb :=
  match found with
  | none => (.inserted, { db with records := db.records.put row })
  | some old =>
      let merged := mergedRow host provider old row
      if old.financialContent = merged.financialContent then
        (.unchanged, { db with records := db.records.put merged })
      else
        (.updated, { db with
          records := db.records.put merged
          revisions := db.revisions ++ [⟨row.key, observedAt, old⟩] })

/-- What `upsertRecord` does. -/
def upserted (row : InvestmentRecord) (observedAt : String) (db : InvestmentDb) :
    UpsertOutcome × InvestmentDb :=
  upsertedOver host provider (db.records.find row.key) row observedAt db

/-- A row is looked up by its key. -/
theorem computes_findRecord (key : RecordKind × String) :
    Computes (findRecord key) fun db => .ok (db.records.find key, db) :=
  computes_select _

/-- A row is stored under its key. -/
theorem computes_saveRecord (record : InvestmentRecord) :
    Computes (saveRecord record) fun db => .ok (⟨⟩, { db with records := db.records.put record }) :=
  computes_execute _

/-- A revision is appended. -/
theorem computes_saveRevision (revision : InvestmentRevision) :
    Computes (saveRevision revision) fun db =>
      .ok (⟨⟩, { db with revisions := db.revisions ++ [revision] }) :=
  computes_execute _

/-- What an upsert does to the database. -/
theorem computes_upsertRecord (row : InvestmentRecord) (observedAt : String) :
    Computes (upsertRecord host provider row observedAt) fun db =>
      .ok (upserted host provider row observedAt db) := by
  refine (computes_findRecord row.key).bind
    (g := fun found db => .ok (upsertedOver host provider found row observedAt db)) ?_
  intro found
  cases found with
  | none => exact (computes_saveRecord row).bind fun _ => computes_pure _
  | some old =>
      by_cases hsame : old.financialContent = (mergedRow host provider old row).financialContent
      · simp only [upsertedOver, if_pos hsame]
        exact (computes_saveRecord _).bind fun _ => computes_pure _
      · simp only [upsertedOver, if_neg hsame]
        exact (computes_saveRevision _).bind fun _ =>
          (computes_saveRecord _).bind fun _ => computes_pure _

/-- What `appendArchiveRecord` does with the record found. -/
def archivedOver (found : Option InvestmentRecord) (row : InvestmentRecord) (observedAt : String)
    (db : InvestmentDb) : Except InvestmentError (UpsertOutcome × InvestmentDb) :=
  match found with
  | none => .ok (upserted host provider row observedAt db)
  | some old => (archiveOutcome provider old row).map fun outcome => (outcome, db)

/-- What `appendArchiveRecord` does. -/
def archived (row : InvestmentRecord) (observedAt : String) (db : InvestmentDb) :
    Except InvestmentError (UpsertOutcome × InvestmentDb) :=
  archivedOver host provider (db.records.find row.key) row observedAt db

/-- What a row of an archive does. -/
theorem computes_appendArchiveRecord (row : InvestmentRecord) (observedAt : String) :
    Computes (appendArchiveRecord host provider row observedAt)
      (archived host provider row observedAt) := by
  refine (computes_findRecord row.key).bind
    (g := fun found db => archivedOver host provider found row observedAt db) ?_
  intro found
  cases found with
  | none => exact computes_upsertRecord host provider row observedAt
  | some old => exact computes_ensure _

/-! ## Many records -/

/-- What the loop of `applySnapshot` does. -/
def writtenRecords (rows : List InvestmentRecord) (observedAt : String)
    (start : InvestmentImportSummary × InvestmentDb) : InvestmentImportSummary × InvestmentDb :=
  rows.foldl (fun p row =>
    (p.1.count (upserted host provider row observedAt p.2).1,
      (upserted host provider row observedAt p.2).2)) start

/-- What the rows of a snapshot do. -/
theorem computes_writeRecords (snapshot : InvestmentSnapshot) :
    Computes (writeRecords host provider snapshot) fun db =>
      .ok (writtenRecords host provider snapshot.records snapshot.observedAt
        (⟨true, 0, 0, 0⟩, db)) := by
  have hloop : Computes (writeRecords host provider snapshot) _ :=
    computes_foldlM (fun (summary : InvestmentImportSummary) row =>
      (computes_upsertRecord host provider row snapshot.observedAt).bind
        fun outcome => computes_pure (summary.count outcome)) _ _
  refine hloop.congr ?_
  intro db
  exact List.foldlM_pure ..

end

section
variable (host : Host) (provider : InvestmentProvider)

/-! ## Failures -/

/-- What `recordFailure` does. -/
def failed (failure : InvestmentFailure) (db : InvestmentDb) :
    Except InvestmentError InvestmentDb := do
  let state ← db.readState provider
  if followsLastAttempt state failure.attemptedAt then
    let validated ← parseSourceState (failedState state failure)
    return { db with sourceState := some validated }
  else return db

/-- The row of the source is read, or there is none. -/
theorem computes_readState :
    Computes (readState provider) fun db =>
      (db.readState provider).map fun state => (state, db) :=
  computes_select _

/-- The row of the source is written if the schema accepts it. -/
theorem computes_writeState (state : InvestmentSourceState) :
    Computes (writeState state) fun db =>
      (parseSourceState state).map fun validated =>
        (⟨⟩, { db with sourceState := some validated }) := by
  refine (computes_execute _).congr ?_
  intro db
  cases parseSourceState state with
  | ok validated => rfl
  | error e => rfl

/-- What a failure does. -/
theorem computes_recordFailure (failure : InvestmentFailure) :
    Computes (recordFailure provider failure) fun db =>
      (failed provider failure db).map fun db => (⟨⟩, db) := by
  have hrest : ∀ state, Computes
      (if followsLastAttempt state failure.attemptedAt then writeState (failedState state failure)
        else pure ⟨⟩ : InvestmentM Unit)
      fun db => if followsLastAttempt state failure.attemptedAt then
        (parseSourceState (failedState state failure)).map fun validated =>
          (⟨⟩, { db with sourceState := some validated })
        else .ok (⟨⟩, db) := by
    intro state
    by_cases hfollows : followsLastAttempt state failure.attemptedAt = true
    · simp only [if_pos hfollows]
      exact computes_writeState _
    · simp only [if_neg hfollows]
      exact computes_pure _
  refine Computes.congr ((computes_readState provider).bind hrest).transaction ?_
  intro db
  unfold failed
  cases db.readState provider with
  | error e => rfl
  | ok state =>
      by_cases hfollows : followsLastAttempt state failure.attemptedAt = true
      · simp only [Except.map, bind, Except.bind, if_pos hfollows]
        cases parseSourceState (failedState state failure) with
        | error e => rfl
        | ok validated => rfl
      · simp only [Except.map, bind, Except.bind, if_neg hfollows]
        rfl

/-- A failure that is refused has changed nothing. -/
theorem atomic_recordFailure (failure : InvestmentFailure) :
    Atomic (recordFailure provider failure) :=
  atomic_transaction _

end

section
variable (host : Host) (provider : InvestmentProvider)

/-! ## Snapshots -/

/-- Two databases that differ in records and revisions only. -/
def SameButRecords (db db' : InvestmentDb) : Prop :=
  db' = { db with records := db'.records, revisions := db'.revisions }

/-- An upsert writes records and revisions only. -/
theorem upserted_sameButRecords (row : InvestmentRecord) (observedAt : String)
    (db : InvestmentDb) : SameButRecords db (upserted host provider row observedAt db).2 := by
  unfold upserted
  cases db.records.find row.key with
  | none => rfl
  | some old =>
      by_cases hsame : old.financialContent = (mergedRow host provider old row).financialContent
      · simp only [upsertedOver, if_pos hsame]
        rfl
      · simp only [upsertedOver, if_neg hsame]
        rfl

/-- Two programs that write records only. -/
theorem SameButRecords.trans {db₁ db₂ db₃ : InvestmentDb} (h₁ : SameButRecords db₁ db₂)
    (h₂ : SameButRecords db₂ db₃) : SameButRecords db₁ db₃ := by
  unfold SameButRecords at h₂
  rw [h₁] at h₂
  exact h₂

/-- The rows of a snapshot are records only. -/
theorem writtenRecords_sameButRecords (rows : List InvestmentRecord) (observedAt : String)
    (start : InvestmentImportSummary × InvestmentDb) :
    SameButRecords start.2 (writtenRecords host provider rows observedAt start).2 := by
  induction rows generalizing start with
  | nil => rfl
  | cons row rows ih =>
      have hfirst := upserted_sameButRecords host provider row observedAt start.2
      exact hfirst.trans (ih _)

/-- What `staleness` reads. -/
def readStaleness (state : InvestmentSourceState) (observedAt : String) (db : InvestmentDb) :
    Except InvestmentError Bool :=
  if provider = .hapoalim then
    db.lastApplied.map fun appliedAt => isStaleObservation appliedAt state observedAt
  else .ok false

/-- What is read to see whether an observation is stale. -/
theorem computes_staleness (state : InvestmentSourceState) (observedAt : String) :
    Computes (staleness provider state observedAt) fun db =>
      (readStaleness provider state observedAt db).map fun stale => (stale, db) := by
  unfold staleness readStaleness
  by_cases hhapoalim : provider = .hapoalim
  · simp only [if_pos hhapoalim]
    refine Computes.congr ((computes_select _).bind fun appliedAt => computes_pure _) ?_
    intro db
    cases db.lastApplied with
    | ok appliedAt => rfl
    | error e => rfl
  · simp only [if_neg hhapoalim]
    exact computes_pure false

/-- What `writeSnapshot` does. -/
def written (snapshot : InvestmentSnapshot) (state : InvestmentSourceState) (db : InvestmentDb) :
    Except InvestmentError (InvestmentImportSummary × InvestmentDb) := do
  let (summary, after) := writtenRecords host provider snapshot.records snapshot.observedAt
    (⟨true, 0, 0, 0⟩, db)
  let validated ← parseSourceState (appliedState provider state snapshot)
  return (summary, { after with
    sourceState := some validated
    lastAppliedObservation := if provider = .hapoalim then
      normalizedObservation snapshot.observedAt else db.lastAppliedObservation })

/-- `writeSnapshot` reads the state a second time; by then it is known to be
readable. -/
theorem computes_writeSnapshot (snapshot : InvestmentSnapshot) (state : InvestmentSourceState) :
    Computes (writeSnapshot host provider snapshot state) fun db =>
      (db.readState provider).bind fun _ => written host provider snapshot state db := by
  have hlast : ∀ summary : InvestmentImportSummary, Computes (do
      if provider = .hapoalim then
        execute fun db : InvestmentDb =>
          .ok { db with lastAppliedObservation := normalizedObservation snapshot.observedAt }
      return summary : InvestmentM InvestmentImportSummary)
      fun db => .ok (summary, { db with
        lastAppliedObservation := if provider = .hapoalim then
          normalizedObservation snapshot.observedAt else db.lastAppliedObservation }) := by
    intro summary
    by_cases hhapoalim : provider = .hapoalim
    · simp only [if_pos hhapoalim]
      exact (computes_execute _).bind fun _ => computes_pure summary
    · simp only [if_neg hhapoalim]
      exact computes_pure summary
  refine Computes.congr ((computes_writeRecords host provider snapshot).bind fun summary =>
    (computes_readState provider).bind fun _ =>
      (computes_writeState (appliedState provider state snapshot)).bind fun _ => hlast summary) ?_
  intro db
  have hkept := writtenRecords_sameButRecords host provider snapshot.records snapshot.observedAt
    (⟨true, 0, 0, 0⟩, db)
  unfold written
  generalize writtenRecords host provider snapshot.records snapshot.observedAt
    (⟨true, 0, 0, 0⟩, db) = after at hkept ⊢
  have hstate : after.2.readState provider = db.readState provider := by
    rw [hkept]
    rfl
  have hobserved : after.2.lastAppliedObservation = db.lastAppliedObservation := by rw [hkept]
  simp only [bind, Except.bind, hstate]
  cases db.readState provider with
  | error e => rfl
  | ok _ =>
      cases parseSourceState (appliedState provider state snapshot) with
      | error e => rfl
      | ok validated =>
          simp only [Except.map, hobserved]
          rfl

/-- What the transaction of `applySnapshot` does. -/
def observed (snapshot : InvestmentSnapshot) (db : InvestmentDb) :
    Except InvestmentError (InvestmentImportSummary × InvestmentDb) := do
  let state ← db.readState provider
  if ← readStaleness provider state snapshot.observedAt db then return (nothingApplied, db)
  else
    require (followsLastSuccess provider state snapshot.observedAt) .observationPredates
    written host provider snapshot state db

/-- What an observation does. -/
theorem computes_applyObservation (snapshot : InvestmentSnapshot) :
    Computes (applyObservation host provider snapshot) (observed host provider snapshot) := by
  have hrest : ∀ (state : InvestmentSourceState) (stale : Bool), Computes
      (if stale then pure nothingApplied else do
        ensure (require (followsLastSuccess provider state snapshot.observedAt)
          .observationPredates)
        writeSnapshot host provider snapshot state : InvestmentM InvestmentImportSummary)
      fun db => if stale then .ok (nothingApplied, db) else
        (require (followsLastSuccess provider state snapshot.observedAt)
          .observationPredates).bind fun _ =>
            (db.readState provider).bind fun _ => written host provider snapshot state db := by
    intro state stale
    cases stale with
    | true => exact computes_pure _
    | false =>
        simp only [Bool.false_eq_true, if_false]
        refine Computes.congr ((computes_ensure _).bind fun _ =>
          computes_writeSnapshot host provider snapshot state) ?_
        intro db
        cases require (followsLastSuccess provider state snapshot.observedAt)
          InvestmentError.observationPredates with
        | error e => rfl
        | ok _ => rfl
  refine Computes.congr ((computes_readState provider).bind fun state =>
    (computes_staleness provider state snapshot.observedAt).bind (hrest state)).transaction ?_
  intro db
  unfold observed
  cases hread : db.readState provider with
  | error e => rfl
  | ok state =>
      simp only [Except.map, bind, Except.bind]
      cases readStaleness provider state snapshot.observedAt db with
      | error e => rfl
      | ok stale =>
          cases stale with
          | true => rfl
          | false => simp only [hread, Bool.false_eq_true, if_false]

end

section
variable (host : Host) (provider : InvestmentProvider)

/-- What `applySnapshot` does. -/
def imported (input : InvestmentSnapshot) (db : InvestmentDb) :
    Except InvestmentError (InvestmentImportSummary × InvestmentDb) := do
  let snapshot ← parseSnapshot host input
  if isIncomplete provider snapshot then
    (failed provider (incompleteResponse snapshot) db).map fun db => (nothingApplied, db)
  else
    validateRelations provider snapshot
    observed host provider snapshot db

/-- What a snapshot does. -/
theorem computes_applySnapshot (input : InvestmentSnapshot) :
    Computes (applySnapshot host provider input) (imported host provider input) := by
  have hrest : ∀ snapshot : InvestmentSnapshot, Computes
      (if isIncomplete provider snapshot then do
        recordFailure provider (incompleteResponse snapshot)
        return nothingApplied
      else do
        ensure (validateRelations provider snapshot)
        applyObservation host provider snapshot : InvestmentM InvestmentImportSummary)
      fun db => if isIncomplete provider snapshot then
        (failed provider (incompleteResponse snapshot) db).map fun db => (nothingApplied, db)
      else (validateRelations provider snapshot).bind fun _ =>
        observed host provider snapshot db := by
    intro snapshot
    by_cases hincomplete : isIncomplete provider snapshot = true
    · simp only [if_pos hincomplete]
      refine Computes.congr ((computes_recordFailure provider _).bind fun _ => computes_pure _) ?_
      intro db
      cases failed provider (incompleteResponse snapshot) db with
      | ok db' => rfl
      | error e => rfl
    · simp only [if_neg hincomplete]
      refine Computes.congr ((computes_ensure _).bind fun _ =>
        computes_applyObservation host provider snapshot) ?_
      intro db
      cases validateRelations provider snapshot with
      | ok _ => rfl
      | error e => rfl
  refine Computes.congr ((computes_ensure (parseSnapshot host input)).bind hrest) ?_
  intro db
  unfold imported
  cases parseSnapshot host input with
  | ok snapshot => rfl
  | error e => rfl

/-- A snapshot that is refused has changed nothing. -/
theorem atomic_applySnapshot (input : InvestmentSnapshot) :
    Atomic (applySnapshot host provider input) := by
  refine Atomic.after (readOnly_ensure _) fun snapshot => ?_
  by_cases hincomplete : isIncomplete provider snapshot = true
  · simp only [if_pos hincomplete]
    exact (atomic_recordFailure provider _).map _
  · simp only [if_neg hincomplete]
    exact Atomic.after (readOnly_ensure _) fun _ => atomic_transaction _

/-! ## Archives -/

/-- What the loop of `seedArchive` does. -/
def seededRecords (rows : List InvestmentRecord) (observedAt : String)
    (start : InvestmentImportSummary × InvestmentDb) :
    Except InvestmentError (InvestmentImportSummary × InvestmentDb) :=
  rows.foldlM (fun p row =>
    (archived host provider row observedAt p.2).map fun q => (p.1.count q.1, q.2)) start

/-- What `storeEvidence` does. -/
def evidenced (evidence : StoredEvidence) (db : InvestmentDb) :
    Except InvestmentError InvestmentDb :=
  (require ((db.evidence.find evidence.sha256).all fun stored => stored.json = evidence.json)
    .archiveEvidenceConflict).map fun _ => db.withEvidence evidence

/-- What the evidence of an archive does. -/
theorem computes_storeEvidence (evidence : StoredEvidence) :
    Computes (storeEvidence evidence) fun db =>
      (evidenced evidence db).map fun db => (⟨⟩, db) := by
  refine Computes.congr ((computes_select _).bind fun previous =>
    (computes_ensure (require (previous.all fun stored => stored.json = evidence.json)
      .archiveEvidenceConflict)).bind fun _ => computes_execute _) ?_
  intro db
  unfold evidenced
  simp only [Except.map, bind, Except.bind]
  cases require ((db.evidence.find evidence.sha256).all fun stored =>
    stored.json = evidence.json) InvestmentError.archiveEvidenceConflict with
  | ok _ => rfl
  | error e => rfl

/-- What `seedArchive` does. -/
def seeded (input : InvestmentSnapshot) (evidence : SeedEvidence) (db : InvestmentDb) :
    Except InvestmentError (InvestmentImportSummary × InvestmentDb) := do
  let (snapshot, stored) ← checkArchive host provider input evidence
  let _ ← db.readState provider
  let withText ← evidenced stored db
  seededRecords host provider snapshot.archiveRecords snapshot.observedAt
    (⟨true, 0, 0, 0⟩, withText)

/-- What an archive does. -/
theorem computes_seedArchive (input : InvestmentSnapshot) (evidence : SeedEvidence) :
    Computes (seedArchive host provider input evidence) (seeded host provider input evidence) := by
  have hstep : ∀ (observedAt : String) (summary : InvestmentImportSummary) row, Computes
      (do return summary.count (← appendArchiveRecord host provider row observedAt) :
        InvestmentM InvestmentImportSummary)
      fun db => (archived host provider row observedAt db).map fun q =>
        (summary.count q.1, q.2) := by
    intro observedAt summary row
    refine Computes.congr ((computes_appendArchiveRecord host provider row observedAt).bind
      fun outcome => computes_pure (summary.count outcome)) ?_
    intro db
    cases archived host provider row observedAt db with
    | ok q => rfl
    | error e => rfl
  refine Computes.congr ((computes_ensure (checkArchive host provider input evidence)).bind
    fun checked => ((computes_readState provider).bind fun _ =>
      (computes_storeEvidence checked.2).bind fun _ =>
        computes_foldlM (hstep checked.1.observedAt) _ _).transaction) ?_
  intro db
  unfold seeded
  cases checkArchive host provider input evidence with
  | error e => rfl
  | ok checked =>
      obtain ⟨snapshot, stored⟩ := checked
      simp only [Except.map, bind, Except.bind]
      cases db.readState provider with
      | error e => rfl
      | ok _ =>
          dsimp only
          cases evidenced stored db with
          | error e => rfl
          | ok withText => rfl

/-- An archive that is refused has changed nothing. -/
theorem atomic_seedArchive (input : InvestmentSnapshot) (evidence : SeedEvidence) :
    Atomic (seedArchive host provider input evidence) :=
  Atomic.after (readOnly_ensure _) fun _ => atomic_transaction _

end

/-! ## Case by case -/

section
variable {host : Host} {provider : InvestmentProvider}

/-- A requirement passes when it holds. -/
theorem require_ok {p : Prop} [Decidable p] {e : InvestmentError} :
    require p e = .ok ⟨⟩ ↔ p := by
  unfold require
  by_cases h : p
  · simp [h]
  · simp [h]

/-- A state that the schema accepts is kept as it is. -/
theorem parseSourceState_ok {state validated : InvestmentSourceState} :
    parseSourceState state = .ok validated ↔ state.accepted = true ∧ validated = state := by
  unfold parseSourceState
  by_cases h : state.accepted = true
  · simp [h, eq_comm]
  · simp [h]

/-- The database with another source state. -/
def InvestmentDb.withState (db : InvestmentDb) (state : InvestmentSourceState) : InvestmentDb :=
  { db with sourceState := some state }

/-- A failure that follows the last attempt replaces the source state; an
earlier one changes nothing. -/
theorem failed_ok {failure : InvestmentFailure} {db db' : InvestmentDb} :
    failed provider failure db = .ok db' ↔
      ∃ state, db.readState provider = .ok state ∧
        ((followsLastAttempt state failure.attemptedAt = true ∧
            (failedState state failure).accepted = true ∧
            db' = db.withState (failedState state failure)) ∨
          (followsLastAttempt state failure.attemptedAt = false ∧ db' = db)) := by
  unfold failed
  rw [except_bind_ok]
  refine exists_congr fun state => and_congr_right fun _ => ?_
  by_cases hfollows : followsLastAttempt state failure.attemptedAt = true
  · rw [if_pos hfollows, except_bind_ok]
    constructor
    · intro h
      obtain ⟨validated, hvalidated, hdb⟩ := h
      obtain ⟨haccepted, rfl⟩ := parseSourceState_ok.mp hvalidated
      cases hdb
      exact .inl ⟨hfollows, haccepted, rfl⟩
    · intro h
      rcases h with ⟨-, haccepted, rfl⟩ | ⟨hfalse, -⟩
      · exact ⟨_, parseSourceState_ok.mpr ⟨haccepted, rfl⟩, rfl⟩
      · rw [hfollows] at hfalse
        cases hfalse
  · rw [if_neg hfollows]
    constructor
    · intro h
      cases h
      exact .inr ⟨Bool.eq_false_iff.mpr hfollows, rfl⟩
    · intro h
      rcases h with ⟨htrue, -⟩ | ⟨-, rfl⟩
      · exact absurd htrue hfollows
      · rfl

variable (host provider) in
/-- The database after a snapshot has been written. -/
def InvestmentDb.afterSnapshot (db : InvestmentDb) (snapshot : InvestmentSnapshot)
    (state : InvestmentSourceState) : InvestmentDb :=
  { (writtenRecords host provider snapshot.records snapshot.observedAt (⟨true, 0, 0, 0⟩, db)).2 with
    sourceState := some (appliedState provider state snapshot)
    lastAppliedObservation := if provider = .hapoalim then
      normalizedObservation snapshot.observedAt else db.lastAppliedObservation }

variable (host provider) in
/-- The summary of a snapshot that has been written. -/
def InvestmentDb.summaryOf (db : InvestmentDb) (snapshot : InvestmentSnapshot) :
    InvestmentImportSummary :=
  (writtenRecords host provider snapshot.records snapshot.observedAt (⟨true, 0, 0, 0⟩, db)).1

/-- A stale observation changes nothing; any other is written whole. -/
theorem observed_ok {snapshot : InvestmentSnapshot} {db db' : InvestmentDb}
    {summary : InvestmentImportSummary} :
    observed host provider snapshot db = .ok (summary, db') ↔
      ∃ state stale, db.readState provider = .ok state ∧
        readStaleness provider state snapshot.observedAt db = .ok stale ∧
        ((stale = true ∧ summary = nothingApplied ∧ db' = db) ∨
          (stale = false ∧ followsLastSuccess provider state snapshot.observedAt ∧
            (appliedState provider state snapshot).accepted = true ∧
            summary = db.summaryOf host provider snapshot ∧
            db' = db.afterSnapshot host provider snapshot state)) := by
  unfold observed
  rw [except_bind_ok]
  refine exists_congr fun state => ?_
  constructor
  · intro h
    obtain ⟨hread, h⟩ := h
    obtain ⟨stale, hstale, h⟩ := except_bind_ok.mp h
    refine ⟨stale, hread, hstale, ?_⟩
    cases stale with
    | true =>
        cases h
        exact .inl ⟨rfl, rfl, rfl⟩
    | false =>
        rw [if_neg Bool.false_ne_true] at h
        obtain ⟨_, hfollows, h⟩ := except_bind_ok.mp h
        obtain ⟨validated, hvalidated, h⟩ := except_bind_ok.mp h
        obtain ⟨haccepted, rfl⟩ := parseSourceState_ok.mp hvalidated
        cases h
        exact .inr ⟨rfl, require_ok.mp hfollows, haccepted, rfl, rfl⟩
  · intro h
    obtain ⟨stale, hread, hstale, h⟩ := h
    refine ⟨hread, except_bind_ok.mpr ⟨stale, hstale, ?_⟩⟩
    rcases h with ⟨rfl, rfl, rfl⟩ | ⟨rfl, hfollows, haccepted, rfl, rfl⟩
    · rfl
    · rw [if_neg Bool.false_ne_true]
      refine except_bind_ok.mpr ⟨⟨⟩, require_ok.mpr hfollows, ?_⟩
      exact except_bind_ok.mpr ⟨_, parseSourceState_ok.mpr ⟨haccepted, rfl⟩, rfl⟩

/-- A snapshot is a failure when it is incomplete, and an observation
otherwise. -/
theorem imported_ok {input : InvestmentSnapshot} {db db' : InvestmentDb}
    {summary : InvestmentImportSummary} :
    imported host provider input db = .ok (summary, db') ↔
      ∃ snapshot, parseSnapshot host input = .ok snapshot ∧
        ((isIncomplete provider snapshot = true ∧ summary = nothingApplied ∧
            failed provider (incompleteResponse snapshot) db = .ok db') ∨
          (isIncomplete provider snapshot = false ∧ validateRelations provider snapshot = .ok ⟨⟩ ∧
            observed host provider snapshot db = .ok (summary, db'))) := by
  unfold imported
  rw [except_bind_ok]
  refine exists_congr fun snapshot => and_congr_right fun _ => ?_
  by_cases hincomplete : isIncomplete provider snapshot = true
  · rw [if_pos hincomplete]
    constructor
    · intro h
      cases hfailed : failed provider (incompleteResponse snapshot) db with
      | error e =>
          rw [hfailed] at h
          cases h
      | ok after =>
          rw [hfailed] at h
          cases h
          exact .inl ⟨hincomplete, rfl, rfl⟩
    · intro h
      rcases h with ⟨-, rfl, hfailed⟩ | ⟨hfalse, -⟩
      · rw [hfailed]
        rfl
      · rw [hincomplete] at hfalse
        cases hfalse
  · rw [if_neg hincomplete, except_bind_ok]
    constructor
    · intro h
      obtain ⟨u, hrelations, h⟩ := h
      exact .inr ⟨Bool.eq_false_iff.mpr hincomplete, hrelations, h⟩
    · intro h
      rcases h with ⟨htrue, -⟩ | ⟨-, hrelations, h⟩
      · exact absurd htrue hincomplete
      · exact ⟨⟨⟩, hrelations, h⟩

/-- A seeded archive has passed its checks, and its records went in one after
another. -/
theorem seeded_ok {input : InvestmentSnapshot} {evidence : SeedEvidence} {db db' : InvestmentDb}
    {summary : InvestmentImportSummary} :
    seeded host provider input evidence db = .ok (summary, db') ↔
      ∃ snapshot stored, checkArchive host provider input evidence = .ok (snapshot, stored) ∧
        (∃ state, db.readState provider = .ok state) ∧
        ((db.evidence.find stored.sha256).all fun previous => previous.json = stored.json) = true ∧
        seededRecords host provider snapshot.archiveRecords snapshot.observedAt
          (⟨true, 0, 0, 0⟩, db.withEvidence stored) = .ok (summary, db') := by
  unfold seeded
  rw [except_bind_ok]
  constructor
  · intro h
    obtain ⟨⟨snapshot, stored⟩, hchecked, h⟩ := h
    obtain ⟨state, hread, h⟩ := except_bind_ok.mp h
    obtain ⟨withText, htext, h⟩ := except_bind_ok.mp h
    unfold evidenced at htext
    cases hrequire : require ((db.evidence.find stored.sha256).all fun previous =>
        previous.json = stored.json) InvestmentError.archiveEvidenceConflict with
    | error e =>
        rw [hrequire] at htext
        cases htext
    | ok u =>
        rw [hrequire] at htext
        cases htext
        exact ⟨snapshot, stored, hchecked, ⟨state, hread⟩, require_ok.mp hrequire, h⟩
  · intro h
    obtain ⟨snapshot, stored, hchecked, ⟨state, hread⟩, htext, h⟩ := h
    refine ⟨(snapshot, stored), hchecked, except_bind_ok.mpr ⟨state, hread, ?_⟩⟩
    refine except_bind_ok.mpr ⟨db.withEvidence stored, ?_, h⟩
    unfold evidenced
    rw [require_ok.mpr htext]
    rfl

end

/-! ## The records after -/

section
variable {host : Host} {provider : InvestmentProvider}

variable (host provider) in
/-- What is stored when a row meets the record found under its key. -/
def rowOver (found : Option InvestmentRecord) (row : InvestmentRecord) : InvestmentRecord :=
  found.elim row fun old => mergedRow host provider old row

/-- A product keeps its id when it keeps its value, -/
theorem keepCurrentValue_id (old new : InvestmentProduct) :
    (keepCurrentValue provider old new).id = new.id := by
  unfold keepCurrentValue
  by_cases hhapoalim : provider = .hapoalim
  · rw [if_pos hhapoalim]
  · rw [if_neg hhapoalim]

/-- and when it keeps its reports. -/
theorem accumulateReports_id (old new : InvestmentProduct) :
    (accumulateReports host old new).id = new.id := by
  unfold accumulateReports
  split_ifs
  · rfl
  · rfl

/-- Only products are merged; any other row replaces the stored one. -/
theorem mergedRow_of_kind (old : InvestmentRecord) {row : InvestmentRecord}
    (hkind : row.kind ≠ .products) : mergedRow host provider old row = row := by
  cases row with
  | product new => exact absurd rfl hkind
  | _ => cases old with
    | _ => rfl

/-- A merged row has the key of the new one. -/
@[simp] theorem mergedRow_key (old row : InvestmentRecord) :
    (mergedRow host provider old row).key = row.key := by
  by_cases hkind : row.kind = .products
  · cases row with
    | product new =>
        cases old with
        | product old =>
            change (RecordKind.products, (accumulateReports host old
              (keepCurrentValue provider old new)).id) = (RecordKind.products, new.id)
            rw [accumulateReports_id, keepCurrentValue_id]
        | _ => rfl
    | _ => cases hkind
  · rw [mergedRow_of_kind old hkind]

/-- So has a row over what was found. -/
@[simp] theorem rowOver_key (found : Option InvestmentRecord) (row : InvestmentRecord) :
    (rowOver host provider found row).key = row.key := by
  cases found with
  | none => rfl
  | some old => exact mergedRow_key old row

/-- An upsert puts the merged row. -/
theorem upserted_records (row : InvestmentRecord) (observedAt : String) (db : InvestmentDb) :
    (upserted host provider row observedAt db).2.records =
      db.records.put (rowOver host provider (db.records.find row.key) row) := by
  unfold upserted
  cases db.records.find row.key with
  | none => rfl
  | some old =>
      by_cases hsame : old.financialContent = (mergedRow host provider old row).financialContent
      · simp only [upsertedOver, if_pos hsame]
        rfl
      · simp only [upsertedOver, if_neg hsame]
        rfl

/-- What is found after an upsert. -/
theorem find_upserted (row : InvestmentRecord) (observedAt : String) (db : InvestmentDb)
    (key : RecordKind × String) :
    (upserted host provider row observedAt db).2.records.find key =
      if key = row.key then some (rowOver host provider (db.records.find key) row)
      else db.records.find key := by
  rw [upserted_records, KeyedTable.find_put, rowOver_key]
  by_cases hkey : key = row.key
  · rw [if_pos hkey, if_pos hkey, hkey]
  · rw [if_neg hkey, if_neg hkey]

/-- The first row, and then the others. -/
theorem writtenRecords_cons (row : InvestmentRecord) (rows : List InvestmentRecord)
    (observedAt : String) (start : InvestmentImportSummary × InvestmentDb) :
    writtenRecords host provider (row :: rows) observedAt start =
      writtenRecords host provider rows observedAt
        (start.1.count (upserted host provider row observedAt start.2).1,
          (upserted host provider row observedAt start.2).2) := rfl

/-- Rows with different keys are written independently of each other. -/
theorem find_writtenRecords {rows : List InvestmentRecord}
    (hnodup : (rows.map InvestmentRecord.key).Nodup) (observedAt : String)
    (start : InvestmentImportSummary × InvestmentDb) (key : RecordKind × String) :
    (writtenRecords host provider rows observedAt start).2.records.find key =
      ((rows.find? fun row => row.key = key).map fun row =>
        rowOver host provider (start.2.records.find key) row).or (start.2.records.find key) := by
  induction rows generalizing start with
  | nil => rfl
  | cons row rows ih =>
      rw [List.map_cons, List.nodup_cons] at hnodup
      rw [writtenRecords_cons, ih hnodup.2, find_upserted]
      by_cases hkey : row.key = key
      · have hnone : (rows.find? fun other => other.key = key) = none := by
          rw [List.find?_eq_none]
          intro other hother hsame
          refine hnodup.1 (List.mem_map.mpr ⟨other, hother, ?_⟩)
          exact (of_decide_eq_true hsame).trans hkey.symm
        rw [hnone, if_pos hkey.symm, List.find?_cons_of_pos (by simpa using hkey)]
        rfl
      · rw [if_neg (Ne.symm hkey), List.find?_cons_of_neg (by simpa using hkey)]

/-- Counting does not change whether a snapshot was applied. -/
theorem count_applied (summary : InvestmentImportSummary) (outcome : UpsertOutcome) :
    (summary.count outcome).applied = summary.applied := by
  cases outcome with
  | _ => rfl

/-- Neither does writing its rows. -/
theorem writtenRecords_applied (rows : List InvestmentRecord) (observedAt : String)
    (start : InvestmentImportSummary × InvestmentDb) :
    (writtenRecords host provider rows observedAt start).1.applied = start.1.applied := by
  induction rows generalizing start with
  | nil => rfl
  | cons row rows ih =>
      rw [writtenRecords_cons, ih]
      exact count_applied _ _

/-- A snapshot that is written was applied. -/
theorem summaryOf_applied (db : InvestmentDb) (snapshot : InvestmentSnapshot) :
    (db.summaryOf host provider snapshot).applied = true :=
  writtenRecords_applied _ _ _

/-- `seedArchive` inserts a record that is missing and leaves one that is
there. -/
theorem archived_ok {row : InvestmentRecord} {observedAt : String} {db db' : InvestmentDb}
    {outcome : UpsertOutcome} :
    archived host provider row observedAt db = .ok (outcome, db') ↔
      (db.records.find row.key = none ∧ outcome = .inserted ∧
          db' = { db with records := db.records.put row }) ∨
        ∃ old, db.records.find row.key = some old ∧
          archiveOutcome provider old row = .ok .unchanged ∧ outcome = .unchanged ∧ db' = db := by
  unfold archived archivedOver
  cases hfound : db.records.find row.key with
  | none =>
      constructor
      · intro h
        simp only [upserted, hfound, upsertedOver] at h
        cases h
        exact .inl ⟨rfl, rfl, rfl⟩
      · intro h
        rcases h with ⟨-, rfl, rfl⟩ | ⟨old, hold, -⟩
        · simp only [upserted, hfound, upsertedOver]
        · cases hold
  | some old =>
      have hunchanged : ∀ o, archiveOutcome provider old row = .ok o → o = .unchanged := by
        intro o ho
        unfold archiveOutcome at ho
        split at ho
        · split_ifs at ho
          exact (Except.ok.inj ho).symm
        · split_ifs at ho
          exact (Except.ok.inj ho).symm
      constructor
      · intro h
        cases houtcome : archiveOutcome provider old row with
        | error e =>
            simp only [houtcome, Except.map] at h
            cases h
        | ok o =>
            simp only [houtcome, Except.map] at h
            cases h
            obtain rfl := hunchanged _ houtcome
            exact .inr ⟨old, rfl, houtcome, rfl, rfl⟩
      · intro h
        rcases h with ⟨hnone, -⟩ | ⟨old', hold, houtcome, rfl, rfl⟩
        · cases hnone
        · cases hold
          simp only [houtcome, Except.map]

end

/-! ## The records after a snapshot -/

section
variable {host : Host} {provider : InvestmentProvider} {db : InvestmentDb}
  {snapshot : InvestmentSnapshot} {state : InvestmentSourceState}

/-- A row of the snapshot is stored over what was found under its key. -/
theorem find_afterSnapshot_of_mem (hkeys : (snapshot.records.map InvestmentRecord.key).Nodup)
    {row : InvestmentRecord} (hrow : row ∈ snapshot.records) :
    (db.afterSnapshot host provider snapshot state).records.find row.key =
      some (rowOver host provider (db.records.find row.key) row) := by
  have hfound : snapshot.records.find? (fun other => other.key = row.key) = some row :=
    KeyedTable.find_of_mem (t := ⟨snapshot.records, hkeys⟩) hrow
  refine (find_writtenRecords hkeys snapshot.observedAt _ row.key).trans ?_
  rw [hfound]
  rfl

/-- Any other row stays. -/
theorem find_afterSnapshot_of_not_mem (hkeys : (snapshot.records.map InvestmentRecord.key).Nodup)
    {key : RecordKind × String} (hkey : key ∉ snapshot.records.map InvestmentRecord.key) :
    (db.afterSnapshot host provider snapshot state).records.find key = db.records.find key := by
  have hfound : snapshot.records.find? (fun other => other.key = key) = none := by
    rw [List.find?_eq_none]
    intro other hother hsame
    exact hkey (List.mem_map.mpr ⟨other, hother, of_decide_eq_true hsame⟩)
  refine (find_writtenRecords hkeys snapshot.observedAt _ key).trans ?_
  rw [hfound]
  rfl

/-- The rows after a snapshot: its own, merged, and the older ones of other
keys. -/
theorem mem_afterSnapshot (hkeys : (snapshot.records.map InvestmentRecord.key).Nodup)
    {row : InvestmentRecord} :
    row ∈ (db.afterSnapshot host provider snapshot state).records.rows ↔
      (∃ new ∈ snapshot.records, row = rowOver host provider (db.records.find new.key) new) ∨
        (row ∈ db.records.rows ∧ row.key ∉ snapshot.records.map InvestmentRecord.key) := by
  rw [KeyedTable.mem_iff_find]
  by_cases hkey : row.key ∈ snapshot.records.map InvestmentRecord.key
  · obtain ⟨new, hnew, hsame⟩ := List.mem_map.mp hkey
    rw [← hsame, find_afterSnapshot_of_mem hkeys hnew]
    constructor
    · intro h
      exact .inl ⟨new, hnew, (Option.some.inj h).symm⟩
    · intro h
      rcases h with ⟨other, hother, rfl⟩ | ⟨-, hfree⟩
      · rw [rowOver_key] at hsame
        have hfound : some new = some other :=
          (KeyedTable.find_of_mem (t := ⟨snapshot.records, hkeys⟩) hnew).symm.trans
            (hsame ▸ KeyedTable.find_of_mem (t := ⟨snapshot.records, hkeys⟩) hother)
        rw [Option.some.inj hfound]
      · exact absurd (hsame ▸ hkey) hfree
  · rw [find_afterSnapshot_of_not_mem hkeys hkey, ← KeyedTable.mem_iff_find]
    constructor
    · intro h
      exact .inr ⟨h, hkey⟩
    · intro h
      rcases h with ⟨new, hnew, rfl⟩ | ⟨hmem, -⟩
      · rw [rowOver_key] at hkey
        exact absurd (List.mem_map_of_mem hnew) hkey
      · exact hmem

/-- Only products are merged. -/
theorem rowOver_of_kind (found : Option InvestmentRecord) {row : InvestmentRecord}
    (hkind : row.kind ≠ .products) : rowOver host provider found row = row := by
  cases found with
  | none => rfl
  | some old => exact mergedRow_of_kind old hkind

end

/-! ## What the relations say -/

/-- What a snapshot that passes `validateRelations` satisfies. -/
structure RelationsHold (provider : InvestmentProvider) (snapshot : InvestmentSnapshot) : Prop where
  keys : (snapshot.records.map InvestmentRecord.key).Nodup
  product : ∀ row ∈ snapshot.products, row.provider = provider ∧
    investmentProductId row.providerProductId provider = .ok row.id
  pointer : ∀ row ∈ snapshot.products, ∀ current ∈ row.currentValuationId, current ≠ "" →
    ∃ value ∈ snapshot.valuations, value.productId = row.id ∧ value.id = current
  valuationCurrency : ∀ row ∈ snapshot.valuations,
    (snapshot.product? row.productId).map (·.currency) = some row.currency
  activityCurrency : ∀ row ∈ snapshot.activities,
    (snapshot.product? row.productId).map (·.currency) = some row.currency
  trackCurrency : ∀ row ∈ snapshot.tracks,
    (snapshot.product? row.productId).map (·.currency) = some row.currency
  valuation : ∀ row ∈ snapshot.valuations, validateValuation provider snapshot row = .ok ⟨⟩
  execution : ∀ row ∈ snapshot.executions, (snapshot.product? row.productId).isSome

section
variable {provider : InvestmentProvider} {snapshot : InvestmentSnapshot}

/-- A loop of checks passes when every check does. -/
theorem forM_ok {α : Type} {f : α → Except InvestmentError Unit} {items : List α} :
    items.forM f = .ok ⟨⟩ ↔ ∀ a ∈ items, f a = .ok ⟨⟩ := by
  induction items with
  | nil => simp [List.forM_nil, pure, Except.pure]
  | cons a items ih =>
      change (f a >>= fun _ => items.forM f) = .ok ⟨⟩ ↔ _
      rw [except_bind_ok, List.forall_mem_cons]
      constructor
      · rintro ⟨u, hfirst, hrest⟩
        exact ⟨hfirst, ih.mp hrest⟩
      · rintro ⟨hfirst, hrest⟩
        exact ⟨⟨⟩, hfirst, ih.mpr hrest⟩

/-- Ids that differ within every kind differ as keys. -/
theorem records_nodup (hproducts : (snapshot.products.map (·.id)).Nodup)
    (hvaluations : (snapshot.valuations.map (·.id)).Nodup)
    (hactivities : (snapshot.activities.map (·.id)).Nodup)
    (htracks : (snapshot.tracks.map (·.id)).Nodup)
    (hexecutions : (snapshot.executions.map (·.id)).Nodup) :
    (snapshot.records.map InvestmentRecord.key).Nodup := by
  have hkind : ∀ {α : Type} (wrap : α → InvestmentRecord) (kind : RecordKind) (id : α → String)
      (rows : List α), (∀ a, (wrap a).key = (kind, id a)) → (rows.map id).Nodup →
      ((rows.map wrap).map InvestmentRecord.key).Nodup ∧
        ∀ key ∈ (rows.map wrap).map InvestmentRecord.key, key.1 = kind := by
    intro α wrap kind id rows hkey hnodup
    have hmap : (rows.map wrap).map InvestmentRecord.key = (rows.map id).map (Prod.mk kind) := by
      rw [List.map_map, List.map_map]
      exact List.map_congr_left fun a _ => hkey a
    rw [hmap]
    refine ⟨hnodup.map fun a b h => (Prod.mk.inj h).2, ?_⟩
    intro key hmem
    obtain ⟨a, -, rfl⟩ := List.mem_map.mp hmem
    rfl
  have h₁ := hkind .product .products (·.id) snapshot.products (fun _ => rfl) hproducts
  have h₂ := hkind .valuation .valuations (·.id) snapshot.valuations (fun _ => rfl) hvaluations
  have h₃ := hkind .activity .activities (·.id) snapshot.activities (fun _ => rfl) hactivities
  have h₄ := hkind .track .tracks (·.id) snapshot.tracks (fun _ => rfl) htracks
  have h₅ := hkind .execution .executions (·.id) snapshot.executions (fun _ => rfl) hexecutions
  unfold InvestmentSnapshot.records
  simp only [List.map_append, List.nodup_append] at h₁ h₂ h₃ h₄ h₅ ⊢
  refine ⟨⟨⟨⟨h₁.1, h₂.1, ?_⟩, h₃.1, ?_⟩, h₄.1, ?_⟩, h₅.1, ?_⟩
  all_goals
    intro a ha b hb heq
    grind

/-- The relations that were checked hold. -/
theorem relations_of_ok (h : validateRelations provider snapshot = .ok ⟨⟩) :
    RelationsHold provider snapshot := by
  unfold validateRelations at h
  obtain ⟨_, hunique, h⟩ := except_bind_ok.mp h
  obtain ⟨_, hproducts, h⟩ := except_bind_ok.mp h
  obtain ⟨_, hvaluationCurrency, h⟩ := except_bind_ok.mp h
  obtain ⟨_, hactivityCurrency, h⟩ := except_bind_ok.mp h
  obtain ⟨_, htrackCurrency, h⟩ := except_bind_ok.mp h
  obtain ⟨_, hvaluations, h⟩ := except_bind_ok.mp h
  obtain ⟨_, -, h⟩ := except_bind_ok.mp h
  obtain ⟨_, -, hexecutions⟩ := except_bind_ok.mp h
  obtain ⟨h₁, h₂, h₃, h₄, h₅⟩ := require_ok.mp hunique
  have hproduct : ∀ row ∈ snapshot.products,
      (row.provider = provider ∧ investmentProductId row.providerProductId provider = .ok row.id) ∧
        ∀ current ∈ row.currentValuationId, current ≠ "" →
          ∃ value ∈ snapshot.valuations, value.productId = row.id ∧ value.id = current := by
    intro row hrow
    have hvalid := forM_ok.mp hproducts row hrow
    unfold validateProduct at hvalid
    obtain ⟨identity, hidentity, hvalid⟩ := except_bind_ok.mp hvalid
    obtain ⟨_, hsame, hvalid⟩ := except_bind_ok.mp hvalid
    obtain ⟨_, -, hcurrent⟩ := except_bind_ok.mp hvalid
    obtain ⟨hprovider, hid⟩ := require_ok.mp hsame
    rw [← hid] at hidentity
    exact ⟨⟨hprovider, hidentity⟩, require_ok.mp hcurrent⟩
  have hexecution : ∀ row ∈ snapshot.executions, (snapshot.product? row.productId).isSome := by
    intro row hrow
    have hvalid := forM_ok.mp hexecutions row hrow
    unfold validateExecution at hvalid
    obtain ⟨_, hnamed, -⟩ := except_bind_ok.mp hvalid
    exact (require_ok.mp hnamed).2
  exact {
    keys := records_nodup h₁ h₂ h₃ h₄ h₅
    product := fun row hrow => (hproduct row hrow).1
    pointer := fun row hrow => (hproduct row hrow).2
    valuationCurrency := fun row hrow => require_ok.mp (forM_ok.mp hvaluationCurrency row hrow)
    activityCurrency := fun row hrow => require_ok.mp (forM_ok.mp hactivityCurrency row hrow)
    trackCurrency := fun row hrow => require_ok.mp (forM_ok.mp htrackCurrency row hrow)
    valuation := forM_ok.mp hvaluations
    execution := hexecution }

end

end SimplefinBridge
