import SimplefinBridge.Library.Interleaving
import SimplefinBridge.Types

/-!
# Schema migrations of the SQLite ledger

`openStore` brings a ledger file to the schema this build knows: it reads
`schema_version` from the `meta` table and then runs every later migration in
a transaction of its own, each one stamping its version.  The version is read
**outside** those transactions, so another process may migrate the file
between the read and the first `BEGIN IMMEDIATE`.

The file is modelled by its schema (tables with their columns, and indexes)
and the two `meta` rows the code uses.  DDL statements act on the schema as
SQLite does: the `IF NOT EXISTS` forms are idempotent, `ALTER TABLE … ADD
COLUMN` fails when the column is already there.
-/

namespace SimplefinBridge

/-- The DDL statements the migrations are made of. -/
inductive Ddl
  /-- `CREATE TABLE IF NOT EXISTS name (columns)` -/
  | createTable (name : String) (columns : List String)
  /-- `CREATE INDEX IF NOT EXISTS name ON table (columns)` -/
  | createIndex (name table : String) (columns : List String)
  /-- `ALTER TABLE table ADD COLUMN column` -/
  | addColumn (table column : String)
  deriving DecidableEq, Repr

structure Schema where
  tables : List (String × List String)
  indexes : List String
  deriving DecidableEq, Repr

namespace Schema

/-- The columns of a table, if the table exists. -/
def columns (s : Schema) (table : String) : Option (List String) :=
  s.tables.lookup table

/-- Execute one statement; `none` is an SQL error. -/
def exec (s : Schema) : Ddl → Option Schema
  | .createTable name columns =>
      if (s.columns name).isSome then some s
      else some { s with tables := s.tables ++ [(name, columns)] }
  | .createIndex name table _ =>
      if name ∈ s.indexes then some s
      else if (s.columns table).isSome then some { s with indexes := s.indexes ++ [name] }
      else none
  | .addColumn table column =>
      match s.columns table with
      | none => none
      | some existing =>
          if column ∈ existing then none
          else some { s with tables := s.tables.map fun t =>
                        if t.1 = table then (t.1, t.2 ++ [column]) else t }

/-- `db.exec` of a script: the statements in order, stopping at an error. -/
def execAll (s : Schema) (script : List Ddl) : Option Schema :=
  script.foldlM exec s

/-- The object a statement asks for is present in the file. -/
def has (s : Schema) : Ddl → Bool
  | .createTable name _ => (s.columns name).isSome
  | .createIndex name _ _ => name ∈ s.indexes
  | .addColumn table column => ((s.columns table).getD []).contains column

end Schema

def metaTable : Ddl := .createTable "meta" ["key", "value"]

/-- Ordered list of migrations; index + 1 is the schema version they produce. -/
def migrations : List (List Ddl) := [
  [ metaTable,
    .createTable "source_states" ["company", "json"],
    .createTable "runs" ["id", "company", "started_at", "finished_at", "status", "error_type",
      "message", "accounts_seen", "transactions_seen", "transactions_new", "anomalies"],
    .createIndex "runs_company_started" "runs" ["company", "started_at"],
    .createTable "accounts" ["id", "company", "account_number", "kind", "currency", "name",
      "balance", "balance_at", "first_seen", "last_seen", "raw"],
    .createTable "transactions" ["id", "account_id", "company", "identifier", "booked_date",
      "charge_date", "amount", "currency", "description", "memo", "status",
      "installment_number", "installment_total", "original_amount", "original_currency",
      "category", "synthetic", "first_seen", "last_seen", "id_scheme_version", "raw"],
    .createIndex "transactions_account_booked" "transactions" ["account_id", "booked_date"],
    .createIndex "transactions_dedup" "transactions"
      ["account_id", "booked_date", "amount", "description"],
    .createTable "holdings" ["id", "account_id", "symbol", "description", "market_value",
      "shares", "purchase_price", "cost_basis", "currency", "first_seen", "last_seen", "raw"],
    .createIndex "holdings_account" "holdings" ["account_id"],
    .createTable "synthetic_payments" ["transaction_id", "account_id", "charge_date", "amount",
      "emitted_at"],
    .createIndex "synthetic_payments_account" "synthetic_payments" ["account_id", "charge_date"],
    .createTable "consumers" ["id", "label", "basic_user", "secret_hash", "secret_plain",
      "claim_id", "claim_expires_at", "claim_count", "max_claims", "claimed_at",
      "first_authenticated_at", "last_seen_at", "created_at", "revoked_at"],
    .createTable "anomalies" ["transaction_id", "field", "previous", "incoming", "seen_at"],
    .createIndex "anomalies_transaction" "anomalies" ["transaction_id"] ],
  [ .addColumn "transactions" "posted_seen_at" ] ]

/-- A ledger file.  The two `meta` rows hold decimal texts of naturals;
`none` is an absent row. -/
structure LedgerFile where
  schema : Schema
  schemaVersion : Option Nat
  idScheme : Option Nat
  deriving DecidableEq, Repr

namespace LedgerFile

/-- `Number(getMeta('schema_version') ?? 0)` -/
def version (file : LedgerFile) : Nat := file.schemaVersion.getD 0

/-- How many migrations have really been applied: every object their DDL
creates is present. -/
def applied (file : LedgerFile) : Nat :=
  (migrations.filter fun script => script.all file.schema.has).length

end LedgerFile

inductive OpenError
  /-- Ledger schema version is newer than this build supports. -/
  | newerSchema (stored : Nat)
  /-- The ledger was written with another transaction id scheme. -/
  | otherIdScheme (stored : Nat)
  /-- SQLite refused a statement (`duplicate column name`, `no such table`). -/
  | sql
  deriving DecidableEq, Repr

/-- The `CREATE TABLE IF NOT EXISTS meta` that `migrate` starts with. -/
def createMeta (file : LedgerFile) : Except OpenError LedgerFile :=
  match file.schema.exec metaTable with
  | some schema => .ok { file with schema }
  | none => .error .sql

/-- The transaction of one migration: its DDL and its stamp, or nothing. -/
def applyMigration (file : LedgerFile) (version : Nat) : Except OpenError LedgerFile :=
  match file.schema.execAll (migrations.getD (version - 1) []) with
  | some schema => .ok { file with schema, schemaVersion := some version }
  | none => .error .sql

/-- `Store.migrate` -/
def migrate (file : LedgerFile) : Except OpenError LedgerFile := do
  let file ← createMeta file
  let current := file.version
  if current > migrations.length then
    throw (.newerSchema current)
  (List.range' (current + 1) (migrations.length - current)).foldlM applyMigration file

/-- Refuse a ledger written with a different id scheme; otherwise stamp ours. -/
def assertIdScheme (file : LedgerFile) : Except OpenError LedgerFile :=
  match file.idScheme with
  | some stored => if stored = idSchemeVersion then .ok file else .error (.otherIdScheme stored)
  | none => .ok { file with idScheme := some idSchemeVersion }

/-- `openStore`, run by one process with nobody else on the file. -/
def openStore (file : LedgerFile) : Except OpenError LedgerFile := do
  assertIdScheme (← migrate file)

/-! ## The same code, one atomic step at a time -/

/-- Where a process is inside `openStore`. -/
inductive Opening
  | creatingMeta
  | readingVersion
  /-- About to begin the transaction of migration `version`. -/
  | migrating (version : Nat)
  | checkingIdScheme
  | stampingIdScheme
  | opened
  | failed (error : OpenError)
  deriving DecidableEq, Repr

/-- The loop head of `migrate`. -/
def nextMigration (version : Nat) : Opening :=
  if version ≤ migrations.length then .migrating version else .checkingIdScheme

/-- One atomic step of a process inside `openStore`. -/
def advanceOpening (file : LedgerFile) : Opening → LedgerFile × Opening
  | .creatingMeta =>
      match createMeta file with
      | .ok file => (file, .readingVersion)
      | .error e => (file, .failed e)
  | .readingVersion =>
      if file.version > migrations.length then (file, .failed (.newerSchema file.version))
      else (file, nextMigration (file.version + 1))
  | .migrating version =>
      match applyMigration file version with
      | .ok file => (file, nextMigration (version + 1))
      | .error e => (file, .failed e)
  | .checkingIdScheme =>
      match file.idScheme with
      | some stored =>
          if stored = idSchemeVersion then (file, .opened)
          else (file, .failed (.otherIdScheme stored))
      | none => (file, .stampingIdScheme)
  | .stampingIdScheme => ({ file with idScheme := some idSchemeVersion }, .opened)
  | .opened => (file, .opened)
  | .failed e => (file, .failed e)

/-- One process alone, for `n` atomic steps. -/
def openAlone : Nat → LedgerFile → Opening → LedgerFile × Opening
  | 0, file, phase => (file, phase)
  | n + 1, file, phase =>
      openAlone n (advanceOpening file phase).1 (advanceOpening file phase).2

end SimplefinBridge
