import SimplefinBridge.InvestmentWrites
import SimplefinBridge.Library.Runs

/-!
# What the operations of the investment store leave alone

No operation deletes a record.  Everything but an applied snapshot and a
seeded archive leaves the records, the revisions and the last success exactly
as they were, and so does every operation that throws.  A seeded archive only
appends, and seeding it again changes nothing.
-/

namespace SimplefinBridge

open Statements Transactional

/-! ## The last success -/

/-- When the source last succeeded, as its row has it. -/
def InvestmentDb.lastSuccessAt (db : InvestmentDb) : Option String :=
  db.sourceState.bind (·.lastSuccessAt)

/-- When it was last tried. -/
def InvestmentDb.lastAttemptAt (db : InvestmentDb) : Option String :=
  db.sourceState.bind (·.lastAttemptAt)

section
variable {provider : InvestmentProvider} {db : InvestmentDb} {state : InvestmentSourceState}

/-- The state read is the stored one, or the initial one of a database that has
none. -/
theorem readState_ok (h : db.readState provider = .ok state) :
    state.provider = provider ∧
      ((db.sourceState = some state ∧ state.accepted = true) ∨
        (db.sourceState = none ∧ state = initialState provider)) := by
  unfold InvestmentDb.readState at h
  obtain ⟨read, hread, h⟩ := except_bind_ok.mp h
  split_ifs at h with hother
  obtain rfl := Except.ok.inj h
  refine ⟨not_not.mp hother, ?_⟩
  unfold InvestmentDb.storedState at hread
  cases hstored : db.sourceState with
  | none =>
      rw [hstored] at hread
      exact .inr ⟨rfl, (Except.ok.inj hread).symm⟩
  | some stored =>
      rw [hstored] at hread
      obtain ⟨haccepted, rfl⟩ := parseSourceState_ok.mp hread
      exact .inl ⟨rfl, haccepted⟩

/-- A row that can be read says when the source last succeeded. -/
theorem lastSuccessAt_of_readState (h : db.readState provider = .ok state) :
    db.lastSuccessAt = state.lastSuccessAt := by
  unfold InvestmentDb.lastSuccessAt
  rcases (readState_ok h).2 with ⟨hstored, -⟩ | ⟨hstored, rfl⟩
  · rw [hstored, Option.bind_some]
  · rw [hstored]
    rfl

/-- A row that can be read says when the source was last tried. -/
theorem lastAttemptAt_of_readState (h : db.readState provider = .ok state) :
    db.lastAttemptAt = state.lastAttemptAt := by
  unfold InvestmentDb.lastAttemptAt
  rcases (readState_ok h).2 with ⟨hstored, -⟩ | ⟨hstored, rfl⟩
  · rw [hstored, Option.bind_some]
  · rw [hstored]
    rfl

end

/-! ## Frames -/

/-- The records, the revisions and the last success are the same. -/
structure SameHistory (db db' : InvestmentDb) : Prop where
  records : db'.records = db.records
  revisions : db'.revisions = db.revisions
  lastSuccessAt : db'.lastSuccessAt = db.lastSuccessAt

namespace SameHistory

theorem refl (db : InvestmentDb) : SameHistory db db := ⟨rfl, rfl, rfl⟩

theorem trans {db₁ db₂ db₃ : InvestmentDb} (h₁ : SameHistory db₁ db₂)
    (h₂ : SameHistory db₂ db₃) : SameHistory db₁ db₃ :=
  ⟨h₂.records.trans h₁.records, h₂.revisions.trans h₁.revisions,
    h₂.lastSuccessAt.trans h₁.lastSuccessAt⟩

end SameHistory

/-- A program that leaves the history alone. -/
abbrev LeavesHistory {α : Type} (program : InvestmentM α) : Prop :=
  Frames SameHistory program

/-- One program after another. -/
theorem leavesHistory_bind {α β : Type} {first : InvestmentM α} {rest : α → InvestmentM β}
    (hfirst : LeavesHistory first) (hrest : ∀ a, LeavesHistory (rest a)) :
    LeavesHistory (first >>= rest) :=
  hfirst.bind hrest SameHistory.trans

/-- A program that only reads leaves the history alone. -/
theorem leavesHistory_of_readOnly {α : Type} {program : InvestmentM α} (h : ReadOnly program) :
    LeavesHistory program :=
  h.frames SameHistory.refl

/-- A statement that touches neither records, revisions nor the source state. -/
theorem leavesHistory_execute {effect : InvestmentDb → Except InvestmentError InvestmentDb}
    (heffect : ∀ db db', effect db = .ok db' → db'.records = db.records ∧
      db'.revisions = db.revisions ∧ db'.sourceState = db.sourceState) :
    LeavesHistory (execute effect) := by
  refine frames_execute SameHistory.refl fun db db' h => ?_
  obtain ⟨hrecords, hrevisions, hstate⟩ := heffect db db' h
  refine ⟨hrecords, hrevisions, ?_⟩
  unfold InvestmentDb.lastSuccessAt
  rw [hstate]

/-- A transaction leaves alone what its work leaves alone. -/
theorem leavesHistory_transaction {α : Type} {work : InvestmentM α} (h : LeavesHistory work) :
    LeavesHistory (transaction work) :=
  Frames.transaction h SameHistory.refl

/-- Reading a table leaves the history alone. -/
theorem leavesHistory_select {α : Type} (read : InvestmentDb → Except InvestmentError α) :
    LeavesHistory (select read) :=
  leavesHistory_of_readOnly (readOnly_select read)

/-- So does a check. -/
theorem leavesHistory_ensure {α : Type} (result : Except InvestmentError α) :
    LeavesHistory (ensure result) :=
  leavesHistory_of_readOnly (readOnly_ensure result)

/-- So does an answer. -/
theorem leavesHistory_pure {α : Type} (a : α) : LeavesHistory (pure a) :=
  leavesHistory_of_readOnly (readOnly_pure a)

section
variable (host : Host) (provider : InvestmentProvider)

/-- A failure writes the source state, last success included, as it was. -/
theorem failed_sameHistory {failure : InvestmentFailure} {db db' : InvestmentDb}
    (h : failed provider failure db = .ok db') : SameHistory db db' := by
  obtain ⟨state, hread, ⟨-, -, rfl⟩ | ⟨-, rfl⟩⟩ := failed_ok.mp h
  · exact ⟨rfl, rfl, (lastSuccessAt_of_readState hread).symm⟩
  · exact SameHistory.refl _

/-- A failure says nothing of the last success. -/
theorem leavesHistory_recordFailure (failure : InvestmentFailure) :
    LeavesHistory (recordFailure provider failure) := by
  refine (computes_recordFailure provider failure).frames (atomic_recordFailure provider failure)
    SameHistory.refl ?_
  intro db u db' h
  cases hfailed : failed provider failure db with
  | error e =>
      rw [hfailed] at h
      cases h
  | ok after =>
      rw [hfailed] at h
      cases h
      exact failed_sameHistory provider hfailed

/-- Reading the session leaves the history alone. -/
theorem leavesHistory_getSessionState : LeavesHistory getSessionState :=
  leavesHistory_bind (leavesHistory_select _) fun _ => leavesHistory_pure _

/-- So does storing it. -/
theorem leavesHistory_setSessionState (state : ClalSessionState) :
    LeavesHistory (setSessionState state) := by
  refine leavesHistory_bind (leavesHistory_ensure _) fun validated => ?_
  refine leavesHistory_transaction (leavesHistory_bind (leavesHistory_select _) fun previous => ?_)
  by_cases hlater : checkedLater previous validated = true
  · rw [if_pos hlater]
    refine leavesHistory_execute fun db db' h => ?_
    cases h
    exact ⟨rfl, rfl, rfl⟩
  · rw [if_neg hlater]
    exact leavesHistory_pure _

/-- A limiter that stores its attempts beside the history leaves it alone. -/
theorem leavesHistory_consumeAttempt {stored : InvestmentDb → Option (List String)}
    {store : InvestmentDb → List String → InvestmentDb}
    (hstore : ∀ db attempts, (store db attempts).records = db.records ∧
      (store db attempts).revisions = db.revisions ∧
      (store db attempts).sourceState = db.sourceState)
    (window : Int) (instant : Instant) (attemptedAt : String) :
    LeavesHistory (consumeAttempt stored store window instant attemptedAt) := by
  refine leavesHistory_transaction (leavesHistory_bind (leavesHistory_select _) fun previous => ?_)
  by_cases hroom : (recentAttempts window instant previous).length < 2
  · simp only [if_pos hroom]
    refine leavesHistory_bind (leavesHistory_execute fun db db' h => ?_) fun _ =>
      leavesHistory_pure _
    cases h
    exact hstore db _
  · simp only [if_neg hroom]
    exact leavesHistory_pure _

/-- So does asking when a message may be requested. -/
theorem leavesHistory_getAutomaticSmsNextAllowedAt (now : String) :
    LeavesHistory (getAutomaticSmsNextAllowedAt now) :=
  leavesHistory_bind (leavesHistory_ensure _) fun _ =>
    leavesHistory_bind (leavesHistory_select _) fun _ => leavesHistory_pure _

/-- So does counting one. -/
theorem leavesHistory_consumeAutomaticSmsAttempt (attemptedAt : String) :
    LeavesHistory (consumeAutomaticSmsAttempt attemptedAt) := by
  refine leavesHistory_bind (leavesHistory_ensure _) fun _ =>
    leavesHistory_bind (leavesHistory_consumeAttempt ?_ _ _ _) fun _ => leavesHistory_pure _
  exact fun db attempts => ⟨rfl, rfl, rfl⟩

/-- So does counting a refresh. -/
theorem leavesHistory_consumeControlRefreshAttempt (now : String) :
    LeavesHistory (consumeControlRefreshAttempt now) := by
  refine leavesHistory_bind (leavesHistory_ensure _) fun _ =>
    leavesHistory_bind (leavesHistory_consumeAttempt ?_ _ _ _) fun _ => leavesHistory_pure _
  exact fun db attempts => ⟨rfl, rfl, rfl⟩

/-- So does reading a recovery. -/
theorem leavesHistory_getManualRecoveryRequest (requestId : String) :
    LeavesHistory (getManualRecoveryRequest host requestId) :=
  leavesHistory_bind (leavesHistory_ensure _) fun _ => leavesHistory_select _

/-- So does reserving one. -/
theorem leavesHistory_reserveManualRecoveryRequest (requestId createdAt : String) :
    LeavesHistory (reserveManualRecoveryRequest host requestId createdAt) := by
  refine leavesHistory_bind (leavesHistory_ensure _) fun _ =>
    leavesHistory_bind (leavesHistory_ensure _) fun _ =>
      leavesHistory_bind (leavesHistory_transaction
        (leavesHistory_bind (leavesHistory_select _) fun found => ?_)) fun stored => ?_
  · cases found with
    | some request => exact leavesHistory_pure _
    | none =>
        refine leavesHistory_bind (leavesHistory_execute fun db db' h => ?_) fun _ =>
          leavesHistory_bind (leavesHistory_execute fun db db' h => ?_) fun _ =>
            leavesHistory_pure _
        · cases h
          exact ⟨rfl, rfl, rfl⟩
        · cases h
          exact ⟨rfl, rfl, rfl⟩
  · cases stored with
    | some request => exact leavesHistory_bind (leavesHistory_ensure _) fun _ => leavesHistory_pure _
    | none => exact leavesHistory_pure _

/-- So does finishing one. -/
theorem leavesHistory_finishManualRecoveryRequest (recovery : RecoveryStatus) :
    LeavesHistory (finishManualRecoveryRequest host recovery) := by
  refine leavesHistory_bind (leavesHistory_ensure _) fun validated =>
    leavesHistory_execute fun db db' h => ?_
  cases hfound : db.recoveryRequests.find validated.challengeId with
  | none =>
      rw [hfound] at h
      cases h
      exact ⟨rfl, rfl, rfl⟩
  | some request =>
      rw [hfound] at h
      cases h
      exact ⟨rfl, rfl, rfl⟩

/-- So does reading the feed. -/
theorem leavesHistory_readFeed : LeavesHistory (readFeed provider) := by
  refine leavesHistory_transaction (leavesHistory_bind ?_ fun rows =>
    leavesHistory_bind (leavesHistory_select _) fun _ => leavesHistory_pure _)
  refine frames_foldlM _ ?_ SameHistory.refl SameHistory.trans _
  intro rows kind
  exact leavesHistory_bind (leavesHistory_select _) fun _ => leavesHistory_pure _

/-- The operations that import records. -/
def InvestmentOp.imports : InvestmentOp → Bool
  | applySnapshot _ => true
  | seedArchive _ _ => true
  | _ => false

/-- Every operation that imports no records leaves the history alone. -/
theorem leavesHistory_perform {op : InvestmentOp} (himports : op.imports = false) :
    LeavesHistory (op.perform host provider) := by
  have hthen : ∀ {α : Type} {program : InvestmentM α}, LeavesHistory program →
      LeavesHistory (program >>= fun _ => (pure none : InvestmentM (Option InvestmentImportSummary))) :=
    fun h => leavesHistory_bind h fun _ => leavesHistory_pure none
  cases op with
  | applySnapshot input => cases himports
  | seedArchive input evidence => cases himports
  | recordFailure failure => exact hthen (leavesHistory_recordFailure provider failure)
  | getSessionState => exact hthen leavesHistory_getSessionState
  | setSessionState state => exact hthen (leavesHistory_setSessionState state)
  | getAutomaticSmsNextAllowedAt now =>
      exact hthen (leavesHistory_getAutomaticSmsNextAllowedAt now)
  | consumeAutomaticSmsAttempt attemptedAt =>
      exact hthen (leavesHistory_consumeAutomaticSmsAttempt attemptedAt)
  | consumeControlRefreshAttempt now =>
      exact hthen (leavesHistory_consumeControlRefreshAttempt now)
  | getManualRecoveryRequest requestId =>
      exact hthen (leavesHistory_getManualRecoveryRequest host requestId)
  | getLatestManualRecoveryRequest => exact hthen (leavesHistory_select _)
  | reserveManualRecoveryRequest requestId createdAt =>
      exact hthen (leavesHistory_reserveManualRecoveryRequest host requestId createdAt)
  | finishManualRecoveryRequest recovery =>
      exact hthen (leavesHistory_finishManualRecoveryRequest host recovery)
  | getFeed => exact hthen (leavesHistory_readFeed provider)

end

/-! ## Records are never deleted -/

/-- The ids of the stored records, each with its kind. -/
def InvestmentDb.recordKeys (db : InvestmentDb) : List (RecordKind × String) :=
  db.records.rows.map InvestmentRecord.key

/-- What is stored stays stored. -/
def RecordsGrow (db db' : InvestmentDb) : Prop :=
  ∀ key, (db.records.find key).isSome → (db'.records.find key).isSome

namespace RecordsGrow

theorem refl (db : InvestmentDb) : RecordsGrow db db := fun _ h => h

theorem trans {db₁ db₂ db₃ : InvestmentDb} (h₁ : RecordsGrow db₁ db₂) (h₂ : RecordsGrow db₂ db₃) :
    RecordsGrow db₁ db₃ :=
  fun key h => h₂ key (h₁ key h)

/-- A program that leaves the records alone loses none. -/
theorem of_records_eq {db db' : InvestmentDb} (h : db'.records = db.records) : RecordsGrow db db' := by
  intro key hkey
  rw [h]
  exact hkey

/-- A stored row takes the place of the row of its key only. -/
theorem put (db : InvestmentDb) (row : InvestmentRecord) :
    RecordsGrow db { db with records := db.records.put row } := by
  intro key hkey
  simp only [KeyedTable.find_put]
  split_ifs
  · rfl
  · exact hkey

end RecordsGrow

section
variable (host : Host) (provider : InvestmentProvider)

/-- An upserted row loses no key. -/
theorem upserted_grows (row : InvestmentRecord) (observedAt : String) (db : InvestmentDb) :
    RecordsGrow db (upserted host provider row observedAt db).2 := by
  intro key hkey
  rw [find_upserted]
  split_ifs
  · rfl
  · exact hkey

/-- Neither do the rows of a snapshot. -/
theorem writtenRecords_grows (rows : List InvestmentRecord) (observedAt : String)
    (start : InvestmentImportSummary × InvestmentDb) :
    RecordsGrow start.2 (writtenRecords host provider rows observedAt start).2 := by
  induction rows generalizing start with
  | nil => exact RecordsGrow.refl _
  | cons row rows ih =>
      have hrest := ih (start.1.count (upserted host provider row observedAt start.2).1,
        (upserted host provider row observedAt start.2).2)
      exact (upserted_grows host provider row observedAt start.2).trans hrest

/-- Neither does a whole import. -/
theorem imported_grows {input : InvestmentSnapshot} {db db' : InvestmentDb}
    {summary : InvestmentImportSummary}
    (h : imported host provider input db = .ok (summary, db')) : RecordsGrow db db' := by
  obtain ⟨snapshot, -, ⟨-, -, hfailed⟩ | ⟨-, -, hobserved⟩⟩ := imported_ok.mp h
  · exact RecordsGrow.of_records_eq (failed_sameHistory provider hfailed).records
  · obtain ⟨state, stale, -, -, ⟨-, -, rfl⟩ | ⟨-, -, -, -, rfl⟩⟩ := observed_ok.mp hobserved
    · exact RecordsGrow.refl _
    · exact writtenRecords_grows host provider snapshot.records snapshot.observedAt
        (⟨true, 0, 0, 0⟩, db)

/-- Evidence is kept apart from the records. -/
theorem withEvidence_records (db : InvestmentDb) (evidence : StoredEvidence) :
    (db.withEvidence evidence).records = db.records := by
  unfold InvestmentDb.withEvidence
  split_ifs
  · rfl
  · rfl

/-- Neither do the rows of an archive. -/
theorem seededRecords_grows {rows : List InvestmentRecord} {observedAt : String}
    {start last : InvestmentImportSummary × InvestmentDb}
    (h : seededRecords host provider rows observedAt start = .ok last) : RecordsGrow start.2 last.2 := by
  refine except_foldlM_ok (fun _ p => RecordsGrow start.2 p.2) ?_ (RecordsGrow.refl start.2) h
  intro done row p p' hgrows hstep
  cases harchived : archived host provider row observedAt p.2 with
  | error e =>
      rw [harchived] at hstep
      cases hstep
  | ok q =>
      rw [harchived] at hstep
      cases hstep
      refine hgrows.trans ?_
      rcases archived_ok.mp harchived with ⟨-, -, hput⟩ | ⟨old, -, -, -, hsame⟩
      · rw [hput]
        exact RecordsGrow.put p.2 row
      · rw [hsame]
        exact RecordsGrow.refl p.2

/-- No operation deletes a record, whatever the database refuses. -/
theorem perform_grows (op : InvestmentOp) : Frames RecordsGrow (op.perform host provider) := by
  have hthen : ∀ {α : Type} {program : InvestmentM α} (f : α → Option InvestmentImportSummary),
      Frames RecordsGrow program → Frames RecordsGrow (program >>= fun a =>
        (pure (f a) : InvestmentM (Option InvestmentImportSummary))) :=
    fun f h => h.bind (fun a => (readOnly_pure (f a)).frames RecordsGrow.refl) RecordsGrow.trans
  by_cases himports : op.imports = true
  · cases op with
    | applySnapshot input =>
        exact hthen some ((computes_applySnapshot host provider input).frames
          (atomic_applySnapshot host provider input) RecordsGrow.refl
          fun db summary db' h => imported_grows host provider h)
    | seedArchive input evidence =>
        refine hthen some ((computes_seedArchive host provider input evidence).frames
          (atomic_seedArchive host provider input evidence) RecordsGrow.refl ?_)
        intro db summary db' h
        obtain ⟨snapshot, stored, -, -, -, hrecords⟩ := seeded_ok.mp h
        have hgrows := seededRecords_grows host provider hrecords
        exact (RecordsGrow.of_records_eq (withEvidence_records db stored)).trans hgrows
    | _ => cases himports
  · intro s
    have hsame := leavesHistory_perform host provider (Bool.eq_false_iff.mpr himports) s
    exact RecordsGrow.of_records_eq hsame.records

/-- A key that is stored stays stored. -/
theorem recordKeys_mono {db db' : InvestmentDb} (h : RecordsGrow db db') {key : RecordKind × String}
    (hkey : key ∈ db.recordKeys) : key ∈ db'.recordKeys :=
  KeyedTable.find_isSome.mp (h key (KeyedTable.find_isSome.mpr hkey))

/-- An import that answers has returned its summary. -/
theorem perform_applySnapshot_ok {input : InvestmentSnapshot} {s s' : Session InvestmentDb}
    {answer : Option InvestmentImportSummary}
    (h : (InvestmentOp.applySnapshot input).perform host provider s = .ok answer s') :
    ∃ summary, answer = some summary ∧ applySnapshot host provider input s = .ok summary s' := by
  obtain ⟨summary, mid, hrun, hlast⟩ := bind_ok.mp h
  obtain ⟨rfl, rfl⟩ := pure_ok.mp hlast
  exact ⟨summary, rfl, hrun⟩

/-- An operation that throws leaves the history alone. -/
theorem perform_error {op : InvestmentOp} {s s' : Session InvestmentDb} {e : InvestmentError}
    (h : op.perform host provider s = .error e s') : SameHistory s.store s'.store := by
  by_cases himports : op.imports = true
  · have hatomic : Atomic (op.perform host provider) := by
      cases op with
      | applySnapshot input => exact (atomic_applySnapshot host provider input).map some
      | seedArchive input evidence =>
          exact (atomic_seedArchive host provider input evidence).map some
      | _ => cases himports
    rw [hatomic s e s' h]
    exact SameHistory.refl _
  · have hsame := leavesHistory_perform host provider (Bool.eq_false_iff.mpr himports) s
    rw [h] at hsame
    exact hsame

/-- A snapshot answered as not applied leaves the history alone. -/
theorem applySnapshot_not_applied {input : InvestmentSnapshot} {s s' : Session InvestmentDb}
    {summary : InvestmentImportSummary}
    (h : applySnapshot host provider input s = .ok summary s') (hanswer : summary.applied = false) :
    SameHistory s.store s'.store := by
  have himported := (computes_applySnapshot host provider input).returns s summary s' h
  obtain ⟨snapshot, -, ⟨-, -, hfailed⟩ | ⟨-, -, hobserved⟩⟩ := imported_ok.mp himported
  · exact failed_sameHistory provider hfailed
  · obtain ⟨state, stale, -, -, ⟨-, -, hdb⟩ | ⟨-, -, -, rfl, -⟩⟩ := observed_ok.mp hobserved
    · rw [hdb]
      exact SameHistory.refl _
    · rw [summaryOf_applied] at hanswer
      cases hanswer

/-- The call is one that must not touch the history: it threw, or its snapshot
was answered as not applied, or it imports nothing. -/
def InvestmentCall.importsNothing (call : InvestmentCall) (db : InvestmentDb) : Prop :=
  match call.result host provider db with
  | .error _ _ => True
  | .ok answer _ => call.op.imports = false ∨
      ∃ input, call.op = .applySnapshot input ∧ answer.all (·.applied = false) = true

/-- Only imports of snapshots and archives write records. -/
theorem importsNothing_of_imports {call : InvestmentCall} (himports : call.op.imports = false)
    (db : InvestmentDb) : call.importsNothing host provider db := by
  unfold InvestmentCall.importsNothing
  cases call.result host provider db with
  | error e s => trivial
  | ok answer s => exact .inl himports

/-- **Investment records only grow**, and nothing but an applied snapshot or a
seeded archive touches the history: whatever the calls and whatever the
database refuses. -/
theorem investment_records_only_grow :
    (∀ (db : InvestmentDb) (calls : List InvestmentCall),
        ∀ key ∈ db.recordKeys, key ∈ (Runs.run (callStep host provider) db calls).recordKeys) ∧
      ∀ (db : InvestmentDb) (call : InvestmentCall), call.importsNothing host provider db →
        SameHistory db (callStep host provider db call) := by
  constructor
  · intro db calls key hkey
    refine @Runs.run_invariant _ _ _ (fun after : InvestmentDb => key ∈ after.recordKeys) db hkey
      ?_ calls
    intro db call hkey
    exact recordKeys_mono (perform_grows host provider call.op ⟨db, call.faults⟩) hkey
  · intro db call hnothing
    unfold InvestmentCall.importsNothing InvestmentCall.result at hnothing
    unfold callStep InvestmentCall.result
    cases hresult : call.op.perform host provider ⟨db, call.faults⟩ with
    | error e s => exact perform_error host provider hresult
    | ok answer s =>
        rw [hresult] at hnothing
        rcases hnothing with himports | ⟨input, hop, hanswer⟩
        · have hsame := leavesHistory_perform host provider himports ⟨db, call.faults⟩
          rw [hresult] at hsame
          exact hsame
        · rw [hop] at hresult
          obtain ⟨summary, rfl, hrun⟩ := perform_applySnapshot_ok host provider hresult
          exact applySnapshot_not_applied host provider hrun (by simpa using hanswer)

end

/-- A deposit of the policy. -/
def pensionActivity : InvestmentActivity where
  id := "clal:P-1:activity:A-1"
  productId := "clal:P-1"
  sourceId := "A-1"
  date := "2026-08"
  dateKind := .contribution_month
  kind := .employee_contribution
  amount := "250.00"
  currency := "ILS"
  description := "Contribution"
  observedAt := "2026-09-01T06:00:00.000Z"

/-- A store that holds the contribution. -/
def pensionDb : InvestmentDb :=
  { emptyInvestmentDb with records := KeyedTable.empty.put (.activity pensionActivity) }

/-- A failed collection, a week later. -/
def failedCollection : InvestmentCall :=
  ⟨.recordFailure ⟨.error, "2026-09-08T06:00:00.000Z", .TIMEOUT⟩, []⟩

/-- A failed collection of a policy with a deposit leaves both as they were. -/
theorem investment_records_only_grow_failure :
    SameHistory pensionDb (callStep asciiHost .clal pensionDb failedCollection) ∧
      (RecordKind.activities, "clal:P-1:activity:A-1") ∈
        (Runs.run (callStep asciiHost .clal) pensionDb [failedCollection]).recordKeys :=
  ⟨(investment_records_only_grow asciiHost .clal).2 pensionDb failedCollection
      (importsNothing_of_imports asciiHost .clal rfl pensionDb),
    (investment_records_only_grow asciiHost .clal).1 pensionDb [failedCollection] _
      (by decide +kernel)⟩

/-! ## Archives only append -/

section
variable {host : Host} {provider : InvestmentProvider}

/-- Records and evidence were appended under ids that were free, and nothing
else changed. -/
structure AppendsArchive (db db' : InvestmentDb) : Prop where
  records : KeyedTable.Appends db.records db'.records
  evidence : KeyedTable.Appends db.evidence db'.evidence
  rest : db' = { db with records := db'.records, evidence := db'.evidence }

namespace AppendsArchive

theorem refl (db : InvestmentDb) : AppendsArchive db db := ⟨.refl _, .refl _, rfl⟩

theorem trans {db₁ db₂ db₃ : InvestmentDb} (h₁ : AppendsArchive db₁ db₂)
    (h₂ : AppendsArchive db₂ db₃) : AppendsArchive db₁ db₃ := by
  refine ⟨h₁.records.trans h₂.records, h₁.evidence.trans h₂.evidence, ?_⟩
  have hrest := h₂.rest
  rw [h₁.rest] at hrest
  exact hrest

/-- An archive leaves the row of the source alone. -/
theorem sourceState {db db' : InvestmentDb} (h : AppendsArchive db db') :
    db'.sourceState = db.sourceState := by rw [h.rest]

/-- So its state reads as before. -/
theorem readState {db db' : InvestmentDb} (h : AppendsArchive db db') :
    db'.readState provider = db.readState provider := by
  unfold InvestmentDb.readState InvestmentDb.storedState
  rw [h.sourceState]

end AppendsArchive

/-- Evidence is added behind the old. -/
theorem withEvidence_appends (db : InvestmentDb) (evidence : StoredEvidence) :
    AppendsArchive db (db.withEvidence evidence) := by
  unfold InvestmentDb.withEvidence
  by_cases hstored : (db.evidence.find evidence.sha256).isSome
  · rw [if_pos hstored]
    exact AppendsArchive.refl db
  · rw [if_neg hstored]
    exact ⟨.refl _, KeyedTable.appends_put (by simpa using hstored), rfl⟩

/-- What one step of `seedArchive` leaves: the row is stored, or one it agrees
with is. -/
def AgreesStored (provider : InvestmentProvider) (db : InvestmentDb) (row : InvestmentRecord) : Prop :=
  ∃ old, db.records.find row.key = some old ∧ archiveOutcome provider old row = .ok .unchanged

/-- What the store agrees with it still agrees with when more is appended. -/
theorem AgreesStored.mono {db db' : InvestmentDb} {row : InvestmentRecord} (h : AgreesStored provider db row)
    (happends : AppendsArchive db db') : AgreesStored provider db' row := by
  obtain ⟨old, hfound, houtcome⟩ := h
  exact ⟨old, happends.records.find hfound, houtcome⟩

/-- A row agrees with itself, a product if it is the provider's. -/
theorem archiveOutcome_self {row : InvestmentRecord}
    (hproduct : ∀ product, row = .product product → product.provider = provider) :
    archiveOutcome provider row row = .ok .unchanged := by
  cases row with
  | product product => simp [archiveOutcome, hproduct product rfl]
  | _ => simp [archiveOutcome]

/-- A row of an archive is appended, or it agrees with what is stored. -/
theorem archived_agrees {row : InvestmentRecord} {observedAt : String} {db db' : InvestmentDb}
    {outcome : UpsertOutcome}
    (hproduct : ∀ product, row = .product product → product.provider = provider)
    (h : archived host provider row observedAt db = .ok (outcome, db')) :
    AppendsArchive db db' ∧ AgreesStored provider db' row := by
  rcases archived_ok.mp h with ⟨hfree, -, rfl⟩ | ⟨old, hfound, houtcome, -, rfl⟩
  · refine ⟨⟨KeyedTable.appends_put hfree, .refl _, rfl⟩, row, ?_, archiveOutcome_self hproduct⟩
    exact KeyedTable.find_put_self _ _
  · exact ⟨AppendsArchive.refl _, old, hfound, houtcome⟩

/-- So do all its rows. -/
theorem seededRecords_agree {rows : List InvestmentRecord} {observedAt : String}
    {start last : InvestmentImportSummary × InvestmentDb}
    (hproduct : ∀ product, .product product ∈ rows → product.provider = provider)
    (h : seededRecords host provider rows observedAt start = .ok last) :
    AppendsArchive start.2 last.2 ∧ ∀ row ∈ rows, AgreesStored provider last.2 row := by
  induction rows generalizing start with
  | nil =>
      cases h
      exact ⟨AppendsArchive.refl _, fun row hrow => absurd hrow List.not_mem_nil⟩
  | cons row rows ih =>
      unfold seededRecords at h
      rw [List.foldlM_cons] at h
      obtain ⟨mid, hfirst, hrest⟩ := except_bind_ok.mp h
      cases harchived : archived host provider row observedAt start.2 with
      | error e =>
          rw [harchived] at hfirst
          cases hfirst
      | ok q =>
          rw [harchived] at hfirst
          cases hfirst
          obtain ⟨happends, hagrees⟩ := archived_agrees
            (fun product hrow => hproduct product (hrow ▸ List.mem_cons_self)) harchived
          obtain ⟨hlater, hothers⟩ :=
            ih (fun product hmem => hproduct product (List.mem_cons_of_mem _ hmem)) hrest
          refine ⟨happends.trans hlater, List.forall_mem_cons.mpr ⟨?_, hothers⟩⟩
          exact hagrees.mono hlater

/-- Rows that are all agree with stored ones are all unchanged. -/
theorem seededRecords_of_agree {rows : List InvestmentRecord} (observedAt : String)
    {summary : InvestmentImportSummary} {db : InvestmentDb}
    (h : ∀ row ∈ rows, AgreesStored provider db row) :
    seededRecords host provider rows observedAt (summary, db) =
      .ok ({ summary with unchanged := summary.unchanged + rows.length }, db) := by
  induction rows generalizing summary with
  | nil => rfl
  | cons row rows ih =>
      obtain ⟨⟨old, hfound, houtcome⟩, hothers⟩ := List.forall_mem_cons.mp h
      have hfirst : archived host provider row observedAt db = .ok (.unchanged, db) :=
        archived_ok.mpr (.inr ⟨old, hfound, houtcome, rfl, rfl⟩)
      have hrest := @ih (summary.count .unchanged) hothers
      unfold seededRecords at hrest ⊢
      rw [List.foldlM_cons, hfirst]
      refine Eq.trans hrest ?_
      simp only [InvestmentImportSummary.count, List.length_cons]
      congr 3
      omega

/-- What is checked before an archive is written. -/
theorem checkArchive_ok {input snapshot : InvestmentSnapshot} {evidence : SeedEvidence}
    {stored : StoredEvidence}
    (h : checkArchive host provider input evidence = .ok (snapshot, stored)) :
    snapshot = input.trimmed ∧ RelationsHold provider snapshot ∧
      (∀ product ∈ snapshot.products, product.currentValuationId = none) ∧
      ∀ row ∈ snapshot.valuations, row.provenance ≠ none := by
  unfold checkArchive at h
  obtain ⟨parsed, hparsed, h⟩ := except_bind_ok.mp h
  obtain ⟨_, hshape, h⟩ := except_bind_ok.mp h
  obtain ⟨_, hrelations, h⟩ := except_bind_ok.mp h
  obtain ⟨_, -, h⟩ := except_bind_ok.mp h
  have hsame : parsed = snapshot := by
    cases hmanifest : evidence.manifest with
    | none =>
        rw [hmanifest] at h
        cases h
    | some json =>
        rw [hmanifest] at h
        obtain ⟨_, -, hlast⟩ := except_bind_ok.mp h
        cases hlast
        rfl
  subst hsame
  obtain ⟨-, -, -, -, -, -, hpointers, hprovenance⟩ := require_ok.mp hshape
  exact ⟨(parseSnapshot_ok hparsed).1, relations_of_ok hrelations, hpointers, hprovenance⟩

/-- The products of an archive are among its records. -/
theorem mem_archiveRecords_product {snapshot : InvestmentSnapshot} {product : InvestmentProduct} :
    .product product ∈ snapshot.archiveRecords ↔ product ∈ snapshot.products := by
  simp [InvestmentSnapshot.archiveRecords]

/-- What `seedArchive` has done when it returns. -/
theorem seeded_appends {input : InvestmentSnapshot} {evidence : SeedEvidence}
    {db db' : InvestmentDb} {summary : InvestmentImportSummary}
    (h : seeded host provider input evidence db = .ok (summary, db')) :
    AppendsArchive db db' ∧ ∀ snapshot stored,
      checkArchive host provider input evidence = .ok (snapshot, stored) →
        db'.evidence.find stored.sha256 = some stored ∧
          ∀ row ∈ snapshot.archiveRecords, AgreesStored provider db' row := by
  obtain ⟨snapshot, stored, hchecked, -, htext, hrecords⟩ := seeded_ok.mp h
  have hrelations := (checkArchive_ok hchecked).2.1
  obtain ⟨happends, hagrees⟩ := seededRecords_agree
    (fun product hmem => (hrelations.product product (mem_archiveRecords_product.mp hmem)).1) hrecords
  refine ⟨(withEvidence_appends db stored).trans happends, ?_⟩
  intro snapshot' stored' hchecked'
  cases hchecked.symm.trans hchecked'
  refine ⟨happends.evidence.find ?_, hagrees⟩
  unfold InvestmentDb.withEvidence
  cases hstored : db.evidence.find stored.sha256 with
  | none => exact KeyedTable.find_put_self db.evidence stored
  | some previous =>
      rw [hstored] at htext
      have hjson : previous.json = stored.json := by simpa using htext
      have hsha : previous.sha256 = stored.sha256 := KeyedTable.key_of_find hstored
      have hsame : previous = stored := by
        cases previous
        cases stored
        simp_all
      rw [Option.isSome_some, if_pos rfl, hstored, hsame]

/-- **Seeding an archive only appends.**  It throws and leaves the store as it
was, or adds records and evidence whose ids were free; seeding it again then
finds everything unchanged and writes nothing. -/
theorem seedArchive_appends (host : Host) (provider : InvestmentProvider)
    (input : InvestmentSnapshot) (evidence : SeedEvidence) (db : InvestmentDb)
    (faults : List Bool) :
    (∀ e s, seedArchive host provider input evidence ⟨db, faults⟩ = .error e s → s.store = db) ∧
      ∀ summary s, seedArchive host provider input evidence ⟨db, faults⟩ = .ok summary s →
        AppendsArchive db s.store ∧
          seedArchive host provider input evidence ⟨s.store, []⟩ =
            .ok ⟨true, 0, 0, input.products.length + input.valuations.length⟩ ⟨s.store, []⟩ := by
  constructor
  · intro e s h
    exact atomic_seedArchive host provider input evidence _ e s h
  · intro summary s h
    have hseeded := (computes_seedArchive host provider input evidence).returns _ summary s h
    obtain ⟨happends, hagain⟩ := seeded_appends hseeded
    refine ⟨happends, (computes_seedArchive host provider input evidence).accepted _ _ _ ?_⟩
    obtain ⟨snapshot, stored, hchecked, ⟨state, hread⟩, -, -⟩ := seeded_ok.mp hseeded
    obtain ⟨htext, hagrees⟩ := hagain snapshot stored hchecked
    have hkept : s.store.withEvidence stored = s.store := by
      unfold InvestmentDb.withEvidence
      rw [htext, Option.isSome_some, if_pos rfl]
    refine seeded_ok.mpr ⟨snapshot, stored, hchecked, ⟨state, ?_⟩, ?_, ?_⟩
    · rw [happends.readState]
      exact hread
    · rw [htext]
      simp
    · rw [hkept, seededRecords_of_agree _ hagrees, (checkArchive_ok hchecked).1]
      simp [InvestmentSnapshot.archiveRecords, InvestmentSnapshot.trimmed]

end

/-- An archive of the securities of a branch. -/
def securitiesArchive : InvestmentSnapshot where
  observedAt := "2026-09-01T06:00:00.000Z"
  complete := true
  inventoryComplete := true
  products := [{
    id := "hapoalim:12-345-678901"
    provider := .hapoalim
    providerProductId := "12-345-678901"
    kind := .investment
    name := "Securities"
    currency := "ILS"
    currentValuationId := none
    liquidity := ⟨.unknown, none, none⟩
    coverage := ⟨.partially, .unavailable, .unavailable, none⟩
    forecast := none
    reportSummaries := none }]
  valuations := [{
    id := "sure:entry:00000000-0000-4000-8000-000000000001"
    productId := "hapoalim:12-345-678901"
    asOf := some "2024-01-31"
    observedAt := "2026-08-01T00:00:00Z"
    amount := "1000.00"
    currency := "ILS"
    provenance := some {
      sourceEntryId := "00000000-0000-4000-8000-000000000001"
      sourceAccountId := "00000000-0000-4000-8000-000000000002"
      sourceSha256 := "0123456789abcdef0123456789abcdef0123456789abcdef0123456789abcdef"
      archiveObservedAt := "2026-08-01T00:00:00Z"
      observationBasis := .archive_read
      sourceAmount := "1000.00" } }]
  activities := []
  tracks := []
  executions := []

/-- The evidence behind it. -/
def securitiesEvidence : SeedEvidence :=
  ⟨"0123456789abcdef0123456789abcdef0123456789abcdef0123456789abcdef", some "{}"⟩

/-- The archive is appended once, and seeding it again changes nothing. -/
theorem seedArchive_appends_securities :
    ∃ s, seedArchive asciiHost .hapoalim securitiesArchive securitiesEvidence
        ⟨emptyInvestmentDb, []⟩ = .ok ⟨true, 2, 0, 0⟩ s ∧
      AppendsArchive emptyInvestmentDb s.store ∧
      seedArchive asciiHost .hapoalim securitiesArchive securitiesEvidence ⟨s.store, []⟩ =
        .ok ⟨true, 0, 0, 2⟩ ⟨s.store, []⟩ := by
  have hanswer : (match seedArchive asciiHost .hapoalim securitiesArchive securitiesEvidence
      ⟨emptyInvestmentDb, []⟩ with
      | .ok summary _ => summary == ⟨true, 2, 0, 0⟩
      | .error _ _ => false) = true := by decide +kernel
  cases hrun : seedArchive asciiHost .hapoalim securitiesArchive securitiesEvidence
      ⟨emptyInvestmentDb, []⟩ with
  | error e s =>
      rw [hrun] at hanswer
      cases hanswer
  | ok summary s =>
      rw [hrun] at hanswer
      obtain rfl := eq_of_beq hanswer
      have happends := (seedArchive_appends asciiHost .hapoalim securitiesArchive
        securitiesEvidence emptyInvestmentDb []).2 _ s hrun
      exact ⟨s, rfl, happends.1, happends.2⟩

end SimplefinBridge
