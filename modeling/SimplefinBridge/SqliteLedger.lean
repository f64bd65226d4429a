import Mathlib.Data.List.Sort
import SimplefinBridge.ArchiveInstallments
import SimplefinBridge.Library.KeyedTable
import SimplefinBridge.Library.Runs
import SimplefinBridge.Library.Transactional

/-!
# The SQLite ledger

The tables of the ledger and its operations.  A session executes statements
one by one; any of them may be refused by the database (`faults` says which),
and an exception inside a `transaction` rolls the tables back.

`upsertTransactions` is the operation everything else rests on.  Read as a
function it is `upsertStep` folded over the batch (`upsertTransactions_ok`).

A row comes back as its columns give it (`LedgerTransaction.stored`): ids and
dates hold printable characters only, the other texts are whatever the bank
sent.
-/

namespace SimplefinBridge

/-- The tables of the database. -/
structure Ledger where
  sourceStates : KeyedTable SourceState SourceState.company
  runs : KeyedTable RunRecord RunRecord.id
  accounts : KeyedTable LedgerAccount LedgerAccount.id
  transactions : KeyedTable LedgerTransaction LedgerTransaction.id
  holdings : KeyedTable LedgerHolding LedgerHolding.id
  syntheticPayments : KeyedTable SyntheticPayment SyntheticPayment.transactionId
  anomalies : List Anomaly

/-- A new database. -/
def emptyLedger : Ledger where
  sourceStates := .empty
  runs := .empty
  accounts := .empty
  transactions := .empty
  holdings := .empty
  syntheticPayments := .empty
  anomalies := []

/-- An open ledger, and which of the next statements the database refuses. -/
structure Session where
  ledger : Ledger
  faults : List Bool := []

/-- A program that sends statements to the database. -/
abbrev LedgerM := EStateM BridgeError Session

/-- Execute one statement. -/
def statement (effect : Ledger → Except BridgeError Ledger) : LedgerM Unit := fun s =>
  let rest := { s with faults := s.faults.tail }
  if s.faults.headD false then .error .statementFailed rest
  else
    match effect s.ledger with
    | .ok ledger => .ok () { rest with ledger }
    | .error e => .error e rest

/-- Execute one `SELECT`. -/
def query {α : Type} (read : Ledger → α) : LedgerM α := fun s =>
  let rest := { s with faults := s.faults.tail }
  if s.faults.headD false then .error .statementFailed rest else .ok (read s.ledger) rest

/-- Raise the exception of a pure computation. -/
def liftExcept {α : Type} (result : Except BridgeError α) : LedgerM α := fun s =>
  match result with
  | .ok a => .ok a s
  | .error e => .error e s

/-- `BEGIN IMMEDIATE … COMMIT`, with `ROLLBACK` on an exception. -/
def transaction {α : Type} (work : LedgerM α) : LedgerM α :=
  Transactional.transaction (fun before after => { after with ledger := before.ledger }) work

/-! ## Columns -/

/-- The row as `transactionFromRow` reads it back. -/
def LedgerTransaction.stored (row : LedgerTransaction) : LedgerTransaction :=
  { row with
    identifier := row.identifier.map JsText.columnText
    currency := JsText.columnText row.currency
    description := row.description.stored
    memo := row.memo.map JsText.stored
    originalCurrency := row.originalCurrency.map JsText.columnText
    category := row.category.map JsText.stored }

/-- The anomaly as `anomalyFromRow` reads it back. -/
def Anomaly.stored (anomaly : Anomaly) : Anomaly :=
  { anomaly with previous := anomaly.previous.stored, incoming := anomaly.incoming.stored }

/-- Ids come back as they were sent. -/
@[simp] theorem LedgerTransaction.stored_id (row : LedgerTransaction) : row.stored.id = row.id :=
  rfl

/-! ## Transactions -/

/-- `INSERT INTO transactions` -/
def insertTransaction (row : LedgerTransaction) : LedgerM Unit :=
  statement fun ledger =>
    if (ledger.transactions.find row.id).isSome then .error .uniqueConstraint
    else .ok { ledger with transactions := ledger.transactions.put row.stored }

/-- `INSERT INTO anomaly_log` -/
def insertAnomaly (anomaly : Anomaly) : LedgerM Unit :=
  statement fun ledger => .ok { ledger with anomalies := ledger.anomalies ++ [anomaly.stored] }

section
variable (host : Host)

/-- Frozen-field comparison; returns the anomalies (never applies the
incoming values). -/
def frozenFieldAnomalies (existing incoming : LedgerTransaction) : List Anomaly :=
  let frozen : List (AnomalyField × JsText × JsText) :=
    [(.amount, host.toFixed2 existing.amount, host.toFixed2 incoming.amount),
     (.bookedDate, existing.bookedDate, incoming.bookedDate),
     (.description, existing.description, incoming.description)]
  (frozen.filter fun f => f.2.1 ≠ f.2.2).map fun f =>
    { transactionId := incoming.id, field := f.1, previous := f.2.1, incoming := f.2.2,
      seenAt := incoming.lastSeen }

/-- The status a refresh writes: only pending rows move, and only to posted. -/
def refreshedStatus (existing incoming : LedgerTransaction) : TransactionStatus :=
  if existing.status = .pending ∧ incoming.status = .posted then .posted else existing.status

/-- The stored row after `UPDATE … SET status, charge_date, category, memo,
raw, last_seen, posted_seen_at`. -/
def refreshedRow (stored existing incoming : LedgerTransaction) : LedgerTransaction :=
  { stored with
    status := refreshedStatus existing incoming
    chargeDate := incoming.chargeDate.or existing.chargeDate
    category := (incoming.category.or existing.category).map JsText.stored
    memo := (incoming.memo.or existing.memo).map JsText.stored
    raw := preserveArchiveRaw host existing incoming
    lastSeen := incoming.lastSeen
    postedSeenAt := existing.postedSeenAt.or
      (if refreshedStatus existing incoming = existing.status then none
        else some incoming.lastSeen) }

/-- Whether a refresh changes anything user-visible. -/
def refreshChanges (existing incoming : LedgerTransaction) : Bool :=
  refreshedStatus existing incoming ≠ existing.status ||
    existing.chargeDate ≠ incoming.chargeDate || existing.category ≠ incoming.category ||
    existing.memo ≠ incoming.memo

namespace Ledger

/-- The `UPDATE` of `refreshTransaction`. -/
def refresh (ledger : Ledger) (existing incoming : LedgerTransaction) : Ledger :=
  match ledger.transactions.find existing.id with
  | none => ledger
  | some stored =>
      { ledger with
        transactions := ledger.transactions.put (refreshedRow host stored existing incoming) }

end Ledger

/-- Apply the refreshable fields of `incoming` onto `existing`; returns
whether anything user-visible changed. -/
def refreshTransaction (existing incoming : LedgerTransaction) : LedgerM Bool := do
  statement fun ledger => .ok (ledger.refresh host existing incoming)
  return refreshChanges existing incoming

/-- The incoming row as the anomaly check sees it: under the canonical id and
booked date when an alias matched. -/
def aliasedIncoming (existing row : LedgerTransaction) : LedgerTransaction :=
  if existing.id = row.id then row
  else { row with id := existing.id, bookedDate := existing.bookedDate }

/-- One iteration of the loop over the batch. -/
def upsertTransaction (aliases : List (String × LedgerTransaction)) (summary : UpsertSummary)
    (row : LedgerTransaction) : LedgerM UpsertSummary := do
  let existingRow ← query fun ledger => ledger.transactions.find row.id
  match existingRow.or (aliases.lookup row.id) with
  | none =>
      insertTransaction row
      return { summary with inserted := summary.inserted + 1 }
  | some existing =>
      let summary := { summary with
        anomalies := summary.anomalies ++
          frozenFieldAnomalies host existing (aliasedIncoming existing row) }
      if ← refreshTransaction host existing row then
        return { summary with updated := summary.updated + 1 }
      else
        return { summary with unchanged := summary.unchanged + 1 }

/-- The rows an incoming installment may stand for. -/
def archiveCandidates (ledger : Ledger) : List LedgerTransaction :=
  ledger.transactions.rows.filter fun row => row.company = "visaCal"

/-- The aliases of a batch; without a time zone there are none. -/
def batchAliases (rows : List LedgerTransaction) (timezone : Option String) (ledger : Ledger) :
    Except BridgeError (List (String × LedgerTransaction)) :=
  match timezone with
  | none => .ok []
  | some timezone =>
      resolveArchiveInstallments host rows (archiveCandidates ledger) timezone

/-- `upsertTransactions`: one transaction for the whole batch. -/
def upsertTransactions (rows : List LedgerTransaction) (timezone : Option String) :
    LedgerM UpsertSummary :=
  transaction do
    let resolution ← query (batchAliases host rows timezone)
    let aliases ← liftExcept resolution
    let summary ← rows.foldlM (upsertTransaction host aliases) {}
    summary.anomalies.foldlM (fun _ anomaly => insertAnomaly anomaly) ()
    return summary

end

/-- What a reader asks for. -/
structure TransactionQuery where
  accountIds : Option (List String) := none
  fromDate : Option IsoDate := none
  toDate : Option IsoDate := none
  includePending : Bool
  includeSynthetic : Bool

/-- The `WHERE` clause of a query; an empty text is no bound. -/
def TransactionQuery.admits (query : TransactionQuery) (row : LedgerTransaction) : Bool :=
  query.accountIds.all (row.accountId ∈ ·) &&
    query.fromDate.all (fun bound => bound = "" || bound ≤ row.bookedDate) &&
    query.toDate.all (fun bound => bound = "" || row.bookedDate < bound) &&
    (query.includePending || row.status ≠ .pending) &&
    (query.includeSynthetic || !row.synthetic)

/-- `ORDER BY booked_date, id` -/
def bookedBefore (a b : LedgerTransaction) : Prop :=
  a.bookedDate < b.bookedDate ∨ a.bookedDate = b.bookedDate ∧ a.id ≤ b.id

instance : DecidableRel bookedBefore := fun a b =>
  inferInstanceAs (Decidable (a.bookedDate < b.bookedDate ∨ a.bookedDate = b.bookedDate ∧ a.id ≤ b.id))

/-- The rows that a query admits, in the order of booking. -/
def listTransactions (query : TransactionQuery) (ledger : Ledger) : List LedgerTransaction :=
  (ledger.transactions.rows.filter query.admits).insertionSort bookedBefore

/-- A listed row is a stored one that the query admits. -/
theorem mem_listTransactions {query : TransactionQuery} {ledger : Ledger}
    {row : LedgerTransaction} :
    row ∈ listTransactions query ledger ↔
      row ∈ ledger.transactions.rows ∧ query.admits row = true := by
  unfold listTransactions
  rw [List.mem_insertionSort, List.mem_filter]

/-! ## Accounts, holdings, synthetic payments -/

/-- Insert or update; keeps the existing `firstSeen`. -/
def upsertAccount (account : LedgerAccount) : LedgerM Unit :=
  statement fun ledger =>
    let firstSeen := ((ledger.accounts.find account.id).map (·.firstSeen)).getD account.firstSeen
    .ok { ledger with accounts := ledger.accounts.put { account with firstSeen } }

/-- A holding keeps the time it was first seen. -/
def upsertHolding (holding : LedgerHolding) : LedgerM Unit :=
  statement fun ledger =>
    let firstSeen := ((ledger.holdings.find holding.id).map (·.firstSeen)).getD holding.firstSeen
    .ok { ledger with holdings := ledger.holdings.put { holding with firstSeen } }

/-- All holdings in one transaction. -/
def upsertHoldings (rows : List LedgerHolding) : LedgerM Unit :=
  transaction (rows.foldlM (fun _ row => upsertHolding row) ())

/-- `ORDER BY id`, of one company. -/
def listAccounts (company : CompanyId) (ledger : Ledger) : List LedgerAccount :=
  (ledger.accounts.rows.filter fun account => account.company = company).insertionSort
    fun a b => a.id ≤ b.id

/-- The holdings of an account. -/
def listHoldings (accountId : String) (ledger : Ledger) : List LedgerHolding :=
  ledger.holdings.rows.filter fun holding => holding.accountId = accountId

/-- `INSERT INTO synthetic_payments` -/
def insertSyntheticPayment (payment : SyntheticPayment) : LedgerM Unit :=
  statement fun ledger =>
    if (ledger.syntheticPayments.find payment.transactionId).isSome then .error .uniqueConstraint
    else .ok { ledger with syntheticPayments := ledger.syntheticPayments.put payment }

/-- The payments recorded for an account. -/
def listSyntheticPayments (accountId : String) : LedgerM (List SyntheticPayment) :=
  query fun ledger => ledger.syntheticPayments.rows.filter fun p => p.accountId = accountId

/-! ## Source states and runs -/

/-- The state of a company, if it has one. -/
def getSourceState (company : CompanyId) : LedgerM (Option SourceState) :=
  query fun ledger => ledger.sourceStates.find company

/-- `INSERT … ON CONFLICT(company) DO UPDATE` -/
def upsertSourceState (state : SourceState) : LedgerM Unit :=
  statement fun ledger => .ok { ledger with sourceStates := ledger.sourceStates.put state }

/-- `INSERT OR REPLACE INTO runs` -/
def recordRun (run : RunRecord) : LedgerM Unit :=
  statement fun ledger => .ok { ledger with runs := ledger.runs.put run }

/-! ## What successful statements do -/

/-- A statement that returns has had its effect. -/
theorem statement_ok {effect : Ledger → Except BridgeError Ledger} {s s' : Session} {u : Unit}
    (h : statement effect s = .ok u s') : effect s.ledger = .ok s'.ledger := by
  unfold statement at h
  dsimp only at h
  split_ifs at h
  split at h
  · rename_i ledger hledger
    cases h
    exact hledger
  · cases h

/-- A query answers from the ledger and leaves it alone. -/
theorem query_ok {α : Type} {read : Ledger → α} {s s' : Session} {a : α}
    (h : query read s = .ok a s') : a = read s.ledger ∧ s'.ledger = s.ledger := by
  unfold query at h
  dsimp only at h
  split_ifs at h
  cases h
  exact ⟨rfl, rfl⟩

/-- A pure step that returns touches no ledger. -/
theorem liftExcept_ok {α : Type} {result : Except BridgeError α} {s s' : Session} {a : α}
    (h : liftExcept result s = .ok a s') : result = .ok a ∧ s' = s := by
  unfold liftExcept at h
  split at h
  · cases h
    exact ⟨rfl, rfl⟩
  · cases h

/-- A statement takes effect or leaves the tables alone. -/
theorem ensures_statement {effect : Ledger → Except BridgeError Ledger} {ledger : Ledger} :
    Transactional.Ensures (fun s => s.ledger = ledger) (statement effect)
      (fun _ s => effect ledger = .ok s.ledger) (fun s => s.ledger = ledger) := by
  rintro s rfl
  unfold statement
  dsimp only
  split_ifs
  · rfl
  · cases heffect : effect s.ledger with
    | ok ledger => rfl
    | error e => rfl

/-- What a query ensures. -/
theorem ensures_query {α : Type} {read : Ledger → α} {ledger : Ledger} :
    Transactional.Ensures (fun s => s.ledger = ledger) (query read)
      (fun a s => a = read ledger ∧ s.ledger = ledger) (fun s => s.ledger = ledger) := by
  rintro s rfl
  unfold query
  dsimp only
  split_ifs
  · rfl
  · exact ⟨rfl, rfl⟩

/-- A refused statement has no effect. -/
theorem statement_error {effect : Ledger → Except BridgeError Ledger} {s s' : Session}
    {e : BridgeError} (h : statement effect s = .error e s') : s'.ledger = s.ledger := by
  have hstatement := @ensures_statement effect s.ledger s rfl
  rw [h] at hstatement
  exact hstatement

/-- What a pure step ensures. -/
theorem ensures_liftExcept {α : Type} {result : Except BridgeError α} {P : Session → Prop} :
    Transactional.Ensures P (liftExcept result) (fun a s => result = .ok a ∧ P s) P := by
  intro s hs
  unfold liftExcept
  cases result with
  | ok a => exact ⟨rfl, hs⟩
  | error e => exact hs

/-- A transaction that throws leaves the tables as they were. -/
theorem transaction_error {α : Type} {work : LedgerM α} {s s' : Session} {e : BridgeError}
    (h : transaction work s = .error e s') : s'.ledger = s.ledger := by
  obtain ⟨mid, rfl⟩ := Transactional.transaction_error h
  rfl

/-! ## The upsert as a function -/

section
variable (host : Host)

/-- What one row of the batch does to the ledger and the summary. -/
def upsertStep (aliases : List (String × LedgerTransaction))
    (state : UpsertSummary × Ledger) (row : LedgerTransaction) : UpsertSummary × Ledger :=
  let (summary, ledger) := state
  match (ledger.transactions.find row.id).or (aliases.lookup row.id) with
  | none =>
      ({ summary with inserted := summary.inserted + 1 },
        { ledger with transactions := ledger.transactions.put row.stored })
  | some existing =>
      let anomalies := summary.anomalies ++
        frozenFieldAnomalies host existing (aliasedIncoming existing row)
      (if refreshChanges existing row then
          { summary with anomalies, updated := summary.updated + 1 }
        else { summary with anomalies, unchanged := summary.unchanged + 1 },
        ledger.refresh host existing row)

/-- A refresh reports whether the row changed, and has refreshed it. -/
theorem refreshTransaction_ok {existing row : LedgerTransaction} {s s' : Session}
    {changed : Bool} (h : refreshTransaction host existing row s = .ok changed s') :
    changed = refreshChanges existing row ∧ s'.ledger = s.ledger.refresh host existing row := by
  unfold refreshTransaction at h
  obtain ⟨u, s₁, hupdate, hreturn⟩ := Transactional.bind_ok.mp h
  obtain ⟨rfl, rfl⟩ := Transactional.pure_ok.mp hreturn
  have hledger := statement_ok hupdate
  exact ⟨rfl, (Except.ok.inj hledger).symm⟩

/-- One row of a batch is a step of `upsertStep`. -/
theorem upsertTransaction_ok {aliases : List (String × LedgerTransaction)}
    {summary summary' : UpsertSummary} {row : LedgerTransaction} {s s' : Session}
    (h : upsertTransaction host aliases summary row s = .ok summary' s') :
    (summary', s'.ledger) = upsertStep host aliases (summary, s.ledger) row := by
  unfold upsertTransaction at h
  obtain ⟨existingRow, s₁, hquery, h⟩ := Transactional.bind_ok.mp h
  obtain ⟨rfl, hs₁⟩ := query_ok hquery
  rw [← hs₁] at h ⊢
  unfold upsertStep
  dsimp only
  cases hexisting : (s₁.ledger.transactions.find row.id).or (aliases.lookup row.id) with
  | none =>
      rw [hexisting] at h
      obtain ⟨u, s₂, hinsert, hreturn⟩ := Transactional.bind_ok.mp h
      obtain ⟨rfl, rfl⟩ := Transactional.pure_ok.mp hreturn
      have hput := statement_ok hinsert
      split_ifs at hput
      rw [← Except.ok.inj hput]
  | some existing =>
      rw [hexisting] at h
      obtain ⟨changed, s₂, hrefresh, hreturn⟩ := Transactional.bind_ok.mp h
      obtain ⟨hchanged, hledger⟩ := refreshTransaction_ok host hrefresh
      dsimp only
      rw [← hchanged, ← hledger]
      split_ifs at hreturn ⊢ <;>
      · obtain ⟨rfl, rfl⟩ := Transactional.pure_ok.mp hreturn
        rfl

/-- The anomalies are appended in their order. -/
theorem insertAnomalies_ok {anomalies : List Anomaly} {s s' : Session} {u : Unit}
    (h : anomalies.foldlM (fun _ anomaly => insertAnomaly anomaly) () s = .ok u s') :
    s'.ledger =
      { s.ledger with anomalies := s.ledger.anomalies ++ anomalies.map Anomaly.stored } := by
  refine Transactional.foldlM_ok
    (fun done _ s₁ => s₁.ledger =
      { s.ledger with anomalies := s.ledger.anomalies ++ done.map Anomaly.stored })
    ?_ ?_ h
  · intro done anomaly _ s₁ _ s₂ hdone hrun
    unfold insertAnomaly at hrun
    have hnext := statement_ok hrun
    rw [← Except.ok.inj hnext, hdone, List.append_assoc, List.map_append]
    rfl
  · rw [List.map_nil, List.append_nil]

/-- **The upsert as a function.**  A successful `upsertTransactions` resolves
the batch, folds `upsertStep` over it and appends the anomalies. -/
theorem upsertTransactions_ok {rows : List LedgerTransaction} {timezone : Option String}
    {s s' : Session} {summary : UpsertSummary}
    (h : upsertTransactions host rows timezone s = .ok summary s') :
    ∃ aliases ledger, batchAliases host rows timezone s.ledger = .ok aliases ∧
      Runs.run (upsertStep host aliases) ({}, s.ledger) rows = (summary, ledger) ∧
      s'.ledger = { ledger with
        anomalies := ledger.anomalies ++ summary.anomalies.map Anomaly.stored } := by
  unfold upsertTransactions at h
  obtain ⟨resolution, s₁, hquery, hresolve⟩ :=
    Transactional.bind_ok.mp (Transactional.transaction_ok.mp h)
  obtain ⟨rfl, hs₁⟩ := query_ok hquery
  obtain ⟨aliases, s₂, hlift, hupsert⟩ := Transactional.bind_ok.mp hresolve
  obtain ⟨hresolved, rfl⟩ := liftExcept_ok hlift
  obtain ⟨summary', s₃, hloop, hlog⟩ := Transactional.bind_ok.mp hupsert
  obtain ⟨u, s₄, hanomalies, hreturn⟩ := Transactional.bind_ok.mp hlog
  obtain ⟨rfl, rfl⟩ := Transactional.pure_ok.mp hreturn
  have hfold := Transactional.foldlM_view (fun summary s => (summary, s.ledger))
    (upsertStep host aliases) (fun row _ _ _ _ hrow => upsertTransaction_ok host hrow) hloop
  refine ⟨aliases, s₃.ledger, hresolved, ?_, insertAnomalies_ok hanomalies⟩
  rw [← hs₁]
  exact hfold.symm

/-- An upsert that throws leaves the ledger unchanged. -/
theorem upsertTransactions_error {rows : List LedgerTransaction} {timezone : Option String}
    {s s' : Session} {e : BridgeError}
    (h : upsertTransactions host rows timezone s = .error e s') : s'.ledger = s.ledger :=
  transaction_error h

/-! ## Accepted statements -/

/-- A query is not refused where nothing is. -/
theorem query_accepted {α : Type} (read : Ledger → α) (ledger : Ledger) :
    query read ⟨ledger, []⟩ = .ok (read ledger) ⟨ledger, []⟩ := rfl

/-- Neither is a pure step. -/
theorem liftExcept_accepted {α : Type} (a : α) (s : Session) :
    liftExcept (.ok a) s = .ok a s := rfl

/-- One iteration of the loop, when the database accepts its statements. -/
theorem upsertTransaction_accepted (aliases : List (String × LedgerTransaction))
    (summary : UpsertSummary) (row : LedgerTransaction) (ledger : Ledger) :
    upsertTransaction host aliases summary row ⟨ledger, []⟩ =
      .ok (upsertStep host aliases (summary, ledger) row).1
        ⟨(upsertStep host aliases (summary, ledger) row).2, []⟩ := by
  unfold upsertTransaction
  rw [Transactional.bind_of_ok (query_accepted _ ledger)]
  unfold upsertStep
  dsimp only
  cases hexisting : (ledger.transactions.find row.id).or (aliases.lookup row.id) with
  | none =>
      have hfree : ledger.transactions.find row.id = none :=
        (Option.or_eq_none_iff.mp hexisting).1
      have hinsert : insertTransaction row ⟨ledger, []⟩ =
          .ok () ⟨{ ledger with transactions := ledger.transactions.put row.stored }, []⟩ := by
        unfold insertTransaction statement
        dsimp only
        rw [hfree]
        rfl
      exact Transactional.bind_of_ok hinsert
  | some existing =>
      have hrefresh : refreshTransaction host existing row ⟨ledger, []⟩ =
          .ok (refreshChanges existing row) ⟨ledger.refresh host existing row, []⟩ := rfl
      dsimp only
      rw [Transactional.bind_of_ok hrefresh]
      cases refreshChanges existing row <;> rfl

/-- A batch whose statements are accepted is a run of `upsertStep`. -/
theorem upsertLoop_accepted (aliases : List (String × LedgerTransaction))
    (rows : List LedgerTransaction) (summary : UpsertSummary) (ledger : Ledger) :
    rows.foldlM (upsertTransaction host aliases) summary ⟨ledger, []⟩ =
      .ok (Runs.run (upsertStep host aliases) (summary, ledger) rows).1
        ⟨(Runs.run (upsertStep host aliases) (summary, ledger) rows).2, []⟩ := by
  induction rows generalizing summary ledger with
  | nil => rfl
  | cons row rows ih =>
      rw [List.foldlM_cons,
        Transactional.bind_of_ok (upsertTransaction_accepted host aliases summary row ledger)]
      exact ih _ _

/-- Accepted anomalies are appended in their order. -/
theorem insertAnomalies_accepted (anomalies : List Anomaly) (ledger : Ledger) :
    anomalies.foldlM (fun _ anomaly => insertAnomaly anomaly) () ⟨ledger, []⟩ =
      .ok ()
        ⟨{ ledger with anomalies := ledger.anomalies ++ anomalies.map Anomaly.stored }, []⟩ := by
  induction anomalies generalizing ledger with
  | nil =>
      rw [List.map_nil, List.append_nil]
      rfl
  | cons anomaly anomalies ih =>
      have hinsert : insertAnomaly anomaly ⟨ledger, []⟩ =
          .ok () ⟨{ ledger with anomalies := ledger.anomalies ++ [anomaly.stored] }, []⟩ := rfl
      rw [List.foldlM_cons, Transactional.bind_of_ok hinsert, ih]
      simp

/-- When the database accepts every statement, an upsert ends as its
resolution does. -/
theorem upsertTransactions_accepted (rows : List LedgerTransaction) (timezone : Option String)
    (ledger : Ledger) :
    upsertTransactions host rows timezone ⟨ledger, []⟩ =
      match batchAliases host rows timezone ledger with
      | .error e => .error e ⟨ledger, []⟩
      | .ok aliases =>
          let (summary, after) := Runs.run (upsertStep host aliases) ({}, ledger) rows
          .ok summary ⟨{ after with
            anomalies := after.anomalies ++ summary.anomalies.map Anomaly.stored }, []⟩ := by
  unfold upsertTransactions transaction Transactional.transaction
  rw [Transactional.bind_of_ok (query_accepted _ ledger)]
  cases batchAliases host rows timezone ledger with
  | error e => rfl
  | ok aliases =>
      rw [Transactional.bind_of_ok (liftExcept_accepted aliases ⟨ledger, []⟩),
        Transactional.bind_of_ok (upsertLoop_accepted host aliases rows {} ledger),
        Transactional.bind_of_ok (insertAnomalies_accepted _ _)]
      rfl

end

/-! ## Refused statements -/

/-- An operation is a sequence of statements: refusing some can only stop it,
and all of them can be let through while later ones are refused. -/
structure Statementwise {α : Type} (operation : LedgerM α) : Prop where
  alone : ∀ s a s', operation s = .ok a s' → operation ⟨s.ledger, []⟩ = .ok a ⟨s'.ledger, []⟩
  passes : ∀ ledger a s', operation ⟨ledger, []⟩ = .ok a s' → ∃ count, ∀ faults,
    operation ⟨ledger, List.replicate count false ++ faults⟩ = .ok a ⟨s'.ledger, faults⟩

section
variable {α β : Type}

/-- A statement is refused at its place or has its effect. -/
theorem statementwise_statement (effect : Ledger → Except BridgeError Ledger) :
    Statementwise (statement effect) where
  alone := by
    intro s a s' h
    have heffect := statement_ok h
    unfold statement
    dsimp only
    rw [heffect]
    rfl
  passes := by
    intro ledger a s' h
    have heffect := statement_ok h
    refine ⟨1, fun faults => ?_⟩
    unfold statement
    dsimp only
    rw [heffect]
    rfl

/-- A query sends no statement that could be refused. -/
theorem statementwise_query (read : Ledger → α) : Statementwise (query read) where
  alone := by
    intro s a s' h
    obtain ⟨ha, hledger⟩ := query_ok h
    rw [ha, hledger]
    rfl
  passes := by
    intro ledger a s' h
    obtain ⟨ha, hledger⟩ := query_ok h
    rw [ha, hledger]
    exact ⟨1, fun _ => rfl⟩

/-- Neither does a pure step. -/
theorem statementwise_liftExcept (result : Except BridgeError α) :
    Statementwise (liftExcept result) where
  alone := by
    intro s a s' h
    obtain ⟨hresult, hs⟩ := liftExcept_ok h
    rw [hs, hresult]
    rfl
  passes := by
    intro ledger a s' h
    obtain ⟨hresult, hs⟩ := liftExcept_ok h
    rw [hs, hresult]
    exact ⟨0, fun _ => rfl⟩

/-- Nor an answer. -/
theorem statementwise_pure (a : α) : Statementwise (pure a : LedgerM α) where
  alone := by
    intro s b s' h
    obtain ⟨hb, hs⟩ := Transactional.pure_ok.mp h
    rw [hb, hs]
    rfl
  passes := by
    intro ledger b s' h
    obtain ⟨hb, hs⟩ := Transactional.pure_ok.mp h
    rw [hb, hs]
    exact ⟨0, fun _ => rfl⟩

/-- One program after another. -/
theorem Statementwise.bind {first : LedgerM α} {rest : α → LedgerM β}
    (hfirst : Statementwise first) (hrest : ∀ a, Statementwise (rest a)) :
    Statementwise (first >>= rest) where
  alone := by
    intro s b s' h
    obtain ⟨a, mid, hrun, hrun'⟩ := Transactional.bind_ok.mp h
    rw [Transactional.bind_of_ok (hfirst.alone s a mid hrun)]
    exact (hrest a).alone mid b s' hrun'
  passes := by
    intro ledger b s' h
    obtain ⟨a, mid, hrun, hrun'⟩ := Transactional.bind_ok.mp h
    have hmid := hfirst.alone _ a mid hrun
    rw [hrun] at hmid
    injection hmid with _ hmid
    rw [hmid] at hrun'
    obtain ⟨before, hbefore⟩ := hfirst.passes ledger a mid hrun
    obtain ⟨after, hafter⟩ := (hrest a).passes mid.ledger b s' hrun'
    refine ⟨before + after, fun faults => ?_⟩
    rw [List.replicate_add, List.append_assoc, Transactional.bind_of_ok (hbefore _)]
    exact hafter faults

/-- A loop of programs. -/
theorem statementwise_foldlM {f : β → α → LedgerM β} (hf : ∀ b a, Statementwise (f b a))
    (items : List α) (b : β) : Statementwise (items.foldlM f b) := by
  induction items generalizing b with
  | nil => exact statementwise_pure b
  | cons a items ih =>
      rw [List.foldlM_cons]
      exact (hf b a).bind ih

/-- A transaction around a program. -/
theorem Statementwise.transaction {work : LedgerM α} (h : Statementwise work) :
    Statementwise (transaction work) where
  alone := by
    intro s a s' hrun
    exact Transactional.transaction_ok.mpr (h.alone s a s' (Transactional.transaction_ok.mp hrun))
  passes := by
    intro ledger a s' hrun
    obtain ⟨count, hcount⟩ := h.passes ledger a s' (Transactional.transaction_ok.mp hrun)
    exact ⟨count, fun faults => Transactional.transaction_ok.mpr (hcount faults)⟩

/-- A batch of transactions goes statement by statement. -/
theorem statementwise_upsertTransactions (host : Host) (rows : List LedgerTransaction)
    (timezone : Option String) : Statementwise (upsertTransactions host rows timezone) := by
  have hrow : ∀ aliases summary row,
      Statementwise (upsertTransaction host aliases summary row) := by
    intro aliases summary row
    apply Statementwise.bind (statementwise_query _)
    intro existingRow
    split
    · exact (statementwise_statement _).bind fun _ => statementwise_pure _
    · apply Statementwise.bind
      · exact (statementwise_statement _).bind fun _ => statementwise_pure _
      · intro changed
        split_ifs
        · exact statementwise_pure _
        · exact statementwise_pure _
  apply Statementwise.transaction
  apply Statementwise.bind (statementwise_query _)
  intro resolution
  apply Statementwise.bind (statementwise_liftExcept _)
  intro aliases
  apply Statementwise.bind (statementwise_foldlM (hrow aliases) rows _)
  intro summary
  apply Statementwise.bind (statementwise_foldlM (fun _ _ => statementwise_statement _) _ _)
  exact fun _ => statementwise_pure _

/-- So does a batch of holdings. -/
theorem statementwise_upsertHoldings (rows : List LedgerHolding) :
    Statementwise (upsertHoldings rows) :=
  (statementwise_foldlM (fun _ _ => statementwise_statement _) rows ()).transaction

/-- The first statement of the operation, refused, stops it before anything is
written. -/
def Refusable (operation : LedgerM α) : Prop :=
  ∀ ledger faults, ∃ e s, operation ⟨ledger, true :: faults⟩ = .error e s ∧ s.ledger = ledger

/-- Any statement may be refused. -/
theorem refusable_statement (effect : Ledger → Except BridgeError Ledger) :
    Refusable (statement effect) :=
  fun _ _ => ⟨_, _, rfl, rfl⟩

/-- So may a query. -/
theorem refusable_query (read : Ledger → α) : Refusable (query read) :=
  fun _ _ => ⟨_, _, rfl, rfl⟩

/-- A program may be refused where it begins. -/
theorem Refusable.bind {first : LedgerM α} (h : Refusable first) (rest : α → LedgerM β) :
    Refusable (first >>= rest) := by
  intro ledger faults
  obtain ⟨e, s, hstopped, hledger⟩ := h ledger faults
  exact ⟨e, s, Transactional.bind_of_error hstopped, hledger⟩

/-- So may a transaction. -/
theorem Refusable.transaction {work : LedgerM α} (h : Refusable work) :
    Refusable (transaction work) := by
  intro ledger faults
  obtain ⟨e, s, hstopped, -⟩ := h ledger faults
  refine ⟨e, { s with ledger }, ?_, rfl⟩
  unfold SimplefinBridge.transaction Transactional.transaction
  rw [hstopped]

/-- So may a batch of transactions. -/
theorem refusable_upsertTransactions (host : Host) (rows : List LedgerTransaction)
    (timezone : Option String) : Refusable (upsertTransactions host rows timezone) :=
  ((refusable_query _).bind _).transaction

/-- An operation can be let through so that the next statement is refused. -/
theorem Statementwise.then_refused {operation : LedgerM α} (h : Statementwise operation)
    {ledger : Ledger} {a : α} {s : Session} (hrun : operation ⟨ledger, []⟩ = .ok a s) :
    ∃ faults, operation ⟨ledger, faults⟩ = .ok a ⟨s.ledger, [true]⟩ := by
  obtain ⟨count, hcount⟩ := h.passes ledger a s hrun
  exact ⟨_, hcount [true]⟩

end

/-! ## Frames -/

/-- However the operation ends, it leaves a view of the tables alone. -/
def Frames {α γ : Type} (view : Ledger → γ) (operation : LedgerM α) : Prop :=
  Transactional.Keeps (fun s s' => view s'.ledger = view s.ledger) operation

section
variable {α β γ : Type} {view : Ledger → γ}

/-- A statement keeps a view that its effect keeps. -/
theorem frames_statement {effect : Ledger → Except BridgeError Ledger}
    (h : ∀ ledger ledger', effect ledger = .ok ledger' → view ledger' = view ledger) :
    Frames view (statement effect) := by
  intro s
  unfold statement
  dsimp only
  split_ifs
  · rfl
  · split
    · rename_i ledger hledger
      exact h _ _ hledger
    · rfl

/-- A query keeps every view. -/
theorem frames_query (read : Ledger → α) : Frames view (query read) := by
  intro s
  unfold query
  dsimp only
  split_ifs <;> rfl

/-- So does a pure step. -/
theorem frames_liftExcept (result : Except BridgeError α) : Frames view (liftExcept result) := by
  intro s
  unfold liftExcept
  split <;> rfl

/-- So does an answer. -/
theorem frames_pure (a : α) : Frames view (pure a : LedgerM α) :=
  Transactional.keeps_pure (R := fun s s' : Session => view s'.ledger = view s.ledger)
    (fun _ => rfl) a

/-- One program after another keeps what both keep. -/
theorem Frames.bind {first : LedgerM α} {rest : α → LedgerM β} (hfirst : Frames view first)
    (hrest : ∀ a, Frames view (rest a)) : Frames view (first >>= rest) :=
  Transactional.Keeps.bind (R := fun s s' : Session => view s'.ledger = view s.ledger)
    (fun _ _ _ h₁ h₂ => h₂.trans h₁) hfirst hrest

/-- So does a loop. -/
theorem frames_foldlM {f : β → α → LedgerM β} (items : List α)
    (hf : ∀ b, ∀ a ∈ items, Frames view (f b a)) (b : β) : Frames view (items.foldlM f b) :=
  Transactional.keeps_foldlM (R := fun s s' : Session => view s'.ledger = view s.ledger)
    (fun _ => rfl) (fun _ _ _ h₁ h₂ => h₂.trans h₁) items hf b

/-- A frame as pre- and postcondition. -/
theorem Frames.ensures {operation : LedgerM α} (h : Frames view operation) {value : γ} :
    Transactional.Ensures (fun s => view s.ledger = value) operation
      (fun _ s => view s.ledger = value) (fun s => view s.ledger = value) := by
  intro s hs
  have hframe := h s
  cases hrun : operation s with
  | ok a s' =>
      rw [hrun] at hframe
      exact hframe.trans hs
  | error e s' =>
      rw [hrun] at hframe
      exact hframe.trans hs

/-- So does a transaction. -/
theorem Frames.transaction {work : LedgerM α} (h : Frames view work) :
    Frames view (transaction work) :=
  Transactional.Keeps.transaction h fun _ _ => rfl

end

section
variable {γ : Type} {view : Ledger → γ} (host : Host)

/-- An upsert writes the transactions and the anomaly log only. -/
theorem frames_upsertTransactions
    (htransactions : ∀ ledger transactions, view { ledger with transactions } = view ledger)
    (hanomalies : ∀ ledger anomalies, view { ledger with anomalies } = view ledger)
    (rows : List LedgerTransaction) (timezone : Option String) :
    Frames view (upsertTransactions host rows timezone) := by
  have hinsert : ∀ row, Frames view (insertTransaction row) := by
    intro row
    apply frames_statement
    intro ledger ledger' h
    split_ifs at h
    rw [← Except.ok.inj h]
    exact htransactions _ _
  have hrefresh : ∀ existing row, Frames view (refreshTransaction host existing row) := by
    intro existing row
    apply Frames.bind
    · apply frames_statement
      intro ledger ledger' h
      rw [← Except.ok.inj h]
      unfold Ledger.refresh
      split
      · rfl
      · exact htransactions _ _
    · exact fun _ => frames_pure _
  have hrow : ∀ aliases summary row, Frames view (upsertTransaction host aliases summary row) := by
    intro aliases summary row
    apply Frames.bind (frames_query _)
    intro existingRow
    split
    · exact (hinsert row).bind fun _ => frames_pure _
    · apply (hrefresh _ row).bind
      intro changed
      split_ifs <;> exact frames_pure _
  have hanomaly : ∀ anomaly, Frames view (insertAnomaly anomaly) := by
    intro anomaly
    apply frames_statement
    intro ledger ledger' h
    rw [← Except.ok.inj h]
    exact hanomalies _ _
  apply Frames.transaction
  apply Frames.bind (frames_query _)
  intro resolution
  apply Frames.bind (frames_liftExcept _)
  intro aliases
  apply Frames.bind (frames_foldlM rows (fun summary row _ => hrow aliases summary row) _)
  intro summary
  apply Frames.bind (frames_foldlM _ (fun _ anomaly _ => hanomaly anomaly) _)
  exact fun _ => frames_pure _

/-- An account changes the table of accounts only. -/
theorem frames_upsertAccount (haccounts : ∀ ledger accounts, view { ledger with accounts } = view ledger)
    (account : LedgerAccount) : Frames view (upsertAccount account) := by
  apply frames_statement
  intro ledger ledger' h
  rw [← Except.ok.inj h]
  exact haccounts _ _

/-- Holdings change their own table only. -/
theorem frames_upsertHoldings (hholdings : ∀ ledger holdings, view { ledger with holdings } = view ledger)
    (rows : List LedgerHolding) : Frames view (upsertHoldings rows) := by
  apply Frames.transaction
  apply frames_foldlM
  intro _ row _
  apply frames_statement
  intro ledger ledger' h
  rw [← Except.ok.inj h]
  exact hholdings _ _

end

/-- A ledger that holds the archived instalment under two ids. -/
def twiceArchived : Ledger :=
  { emptyLedger with
    transactions := (KeyedTable.empty.put archivedFridge).put
      { archivedFridge with id := "visaCal:1234:archive-2" } }

end SimplefinBridge
