import SimplefinBridge.Coalesce
import SimplefinBridge.FeedWindows
import SimplefinBridge.Library.Windows

/-!
# Late delivery

A consumer polls the feed again and again, each time from a little before its
last poll.  The ledger changes between the polls: rows arrive long after their
date, pending rows post, instalments are dated in the future.  A posted row
that the ledger shows is met by one of the polls all the same
(`late_delivery`).

The argument is about two points, the noon of the row's date and the stamp the
row was discovered by: windows overlap, so the first poll after the discovery
has the stamp, and the window that first reaches the date has the date
(`Windows.Seamless.exists_has_either`).
-/

namespace SimplefinBridge

open CivilDays Transactional Windows

/-! ## Histories -/

/-- A poll of every account for the transactions of `[start, stop)`. -/
structure Poll where
  time : Instant
  start : Epoch
  stop : Epoch
  pending : Bool
  version : Option String := none

namespace Poll

/-- The query that a poll makes. -/
def query (poll : Poll) : AccountsQuery where
  version := poll.version
  startDate := some poll.start
  endDate := some poll.stop
  pending := poll.pending
  balancesOnly := false

/-- The window in milliseconds. -/
def window (poll : Poll) : Window Instant :=
  ⟨(poll.start.val : Int) * 1000, (poll.stop.val : Int) * 1000⟩

end Poll

/-- The calls that an ingestion makes. -/
inductive LedgerCall
  | account (record : LedgerAccount)
  | transactions (rows : List LedgerTransaction) (timezone : Option String)
  | holdings (rows : List LedgerHolding)
  | payment (record : SyntheticPayment)

/-- What is written to the ledger. -/
inductive LedgerWrite
  | call (call : LedgerCall)
  | coalesce (pairs : List ArchiveInstallmentPair) (timezone : String) (dryRun : Bool)
  | sourceState (state : SourceState)
  | run (record : RunRecord)

/-- A write or a poll, with its time. -/
inductive FeedEvent
  | write (time : Instant) (write : LedgerWrite) (faults : List Bool)
  | poll (poll : Poll)

/-- When it happens. -/
def FeedEvent.time : FeedEvent → Instant
  | .write time _ _ => time
  | .poll ask => ask.time

/-- The polls of a history. -/
def polls (events : List FeedEvent) : List Poll :=
  events.filterMap fun event =>
    match event with
    | .write _ _ _ => none
    | .poll poll => some poll

section
variable (host : Host)

/-- The program of a call. -/
def LedgerCall.program (call : LedgerCall) : LedgerM Unit :=
  match call with
  | account record => upsertAccount record
  | transactions rows timezone => do let _ ← upsertTransactions host rows timezone
  | holdings rows => upsertHoldings rows
  | payment record => insertSyntheticPayment record

/-- The program of a write. -/
def LedgerWrite.program (write : LedgerWrite) : LedgerM Unit :=
  match write with
  | .call ledgerCall => ledgerCall.program host
  | .coalesce pairs timezone dryRun => do
      let _ ← coalesceArchiveInstallments host pairs timezone dryRun
  | .sourceState state => upsertSourceState state
  | .run record => recordRun record

/-- The ledger after an event; a write may be refused at any statement. -/
def feedStep (ledger : Ledger) : FeedEvent → Ledger
  | .write _ write faults => (storeAfter (write.program host ⟨ledger, faults⟩)).ledger
  | .poll _ => ledger

/-- What the polls are answered. -/
def responses (config : Config) : Ledger → List FeedEvent → List SimpleFinResponse
  | _, [] => []
  | ledger, .write time write faults :: rest =>
      responses config (feedStep host ledger (.write time write faults)) rest
  | ledger, .poll poll :: rest =>
      buildAccountsResponse host config poll.query poll.time ledger :: responses config ledger rest

/-- The ledger after some events. -/
def feedLedger (events : List FeedEvent) : Ledger := Runs.run (feedStep host) emptyLedger events

/-- The feed may show the row: it is posted and its account is known. -/
structure Shown (company : CompanyId) (ledger : Ledger) (account : LedgerAccount)
    (row : LedgerTransaction) : Prop where
  known : account ∈ ledger.accounts.rows
  ofCompany : account.company = company
  stored : row ∈ ledger.transactions.rows
  ofAccount : row.accountId = account.id
  posted : row.status = .posted

/-- The event shows a row that was not shown. -/
def Shows (company : CompanyId) (before after : Ledger) (account : LedgerAccount)
    (row : LedgerTransaction) : Prop :=
  Shown company after account row ∧
    ∀ account' old, Shown company before account' old → old.id ≠ row.id

/-- The stamp of the discovery of a row that is now shown: of its insertion, or
of its posting when it was stored before.  A row that was posted before, and
only lacked its account, may carry either. -/
def DiscoveredAt (before : Option LedgerTransaction) (row : LedgerTransaction) (seen : Instant) :
    Prop :=
  match before with
  | none => row.firstSeen = seen
  | some old => row.postedSeenAt = some seen ∨
      (old.status = .posted ∧ row.postedSeenAt = none ∧ row.firstSeen = seen)

/-- What a write shows was discovered no longer than `delay` before. -/
def ShownInTime (company : CompanyId) (delay : Nat) (before : Ledger) (event : FeedEvent)
    (after : Ledger) : Prop :=
  ∀ account row, Shows company before after account row →
    ∀ seen, DiscoveredAt (before.transactions.find row.id) row seen →
      event.time - (delay : Int) ≤ seen ∧ seen ≤ event.time

/-- An account that is written again is of the same company and kind. -/
def RestatesAccount (before : Ledger) (event : FeedEvent) (_ : Ledger) : Prop :=
  match event with
  | .write _ (.call (.account record)) _ => ∀ stored, before.accounts.find record.id = some stored →
      record.company = stored.company ∧ record.kind = stored.kind
  | _ => True

/-- A history of the feed from the first write. -/
structure FeedHistory (company : CompanyId) (delay : Nat) (events : List FeedEvent) : Prop where
  ordered : events.Pairwise fun a b => a.time ≤ b.time
  /-- Every window ends in the future. -/
  forward : ∀ poll ∈ polls events, poll.time < poll.window.stop
  /-- Every window starts at least `delay` before the last poll. -/
  rewinds : (polls events).IsChain fun p q => q.window.start ≤ p.time - (delay : Int)
  accounts : Runs.Along (feedStep host) RestatesAccount emptyLedger events
  shown : Runs.Along (feedStep host) (ShownInTime company delay) emptyLedger events

/-- A maintenance run takes the row away. -/
def FeedEvent.Merges (id : String) (after : Ledger) : FeedEvent → Prop
  | .write _ (.coalesce _ _ _) _ => after.transactions.find id = none
  | _ => False

/-- The raw evidence of a posted row stays what it is. -/
def EvidenceStands (id : String) (before : Ledger) (event : FeedEvent) (after : Ledger) : Prop :=
  ¬ event.Merges id after ∧
    ∀ row row', before.transactions.find id = some row → row.status = .posted →
      after.transactions.find id = some row' → row'.raw = row.raw

/-- The row is in the response, at 12:00 UTC of the day. -/
def AppearsIn (id : String) (posted : Int) (response : SimpleFinResponse) : Prop :=
  ∃ account ∈ response.accounts, ∃ served ∈ account.transactions,
    served.id = id ∧ served.posted = some posted

end

/-! ## What a write keeps -/

/-- What may happen to a stored row as far as the feed is concerned. -/
structure Kept (old new : LedgerTransaction) : Prop where
  frozen : new.frozen = old.frozen
  synthetic : new.synthetic = old.synthetic
  posted : old.status = .posted → new.status = .posted
  stamped : ∀ seen, old.postedSeenAt = some seen → new.postedSeenAt = some seen
  /-- Posting stamps. -/
  stamps : old.status = .pending → new.status = .posted → new.postedSeenAt.isSome

/-- A row keeps itself. -/
theorem Kept.refl (row : LedgerTransaction) : Kept row row where
  frozen := rfl
  synthetic := rfl
  posted := id
  stamped := fun _ h => h
  stamps := by
    intro hpending hposted
    rw [hpending] at hposted
    cases hposted

/-- What is kept twice is kept. -/
theorem Kept.trans {a b c : LedgerTransaction} (hab : Kept a b) (hbc : Kept b c) : Kept a c where
  frozen := hbc.frozen.trans hab.frozen
  synthetic := hbc.synthetic.trans hab.synthetic
  posted := hbc.posted ∘ hab.posted
  stamped := fun seen h => hbc.stamped seen (hab.stamped seen h)
  stamps := by
    intro hpending hposted
    cases hb : b.status with
    | pending => exact hbc.stamps hb hposted
    | posted =>
        obtain ⟨seen, hseen⟩ := Option.isSome_iff_exists.mp (hab.stamps hpending hb)
        rw [hbc.stamped seen hseen]
        rfl

/-- A kept row keeps its id. -/
theorem Kept.id_eq {old new : LedgerTransaction} (h : Kept old new) : new.id = old.id :=
  congrArg FrozenFields.id h.frozen

/-- A refresh keeps the row it was computed from. -/
theorem kept_refreshedRow {host : Host} {stored existing : LedgerTransaction}
    (incoming : LedgerTransaction) (hfrozen : stored.frozen = existing.frozen)
    (hsynthetic : stored.synthetic = existing.synthetic) :
    Kept existing (refreshedRow host stored existing incoming) where
  frozen := hfrozen
  synthetic := hsynthetic
  posted := by
    intro hposted
    change refreshedStatus existing incoming = .posted
    unfold refreshedStatus
    rw [if_neg (by rw [hposted]; simp), hposted]
  stamped := by
    intro seen hseen
    change existing.postedSeenAt.or _ = some seen
    rw [hseen, Option.some_or]
  stamps := by
    intro hpending hposted
    change refreshedStatus existing incoming = .posted at hposted
    change (existing.postedSeenAt.or
      (if refreshedStatus existing incoming = existing.status then none
        else some incoming.lastSeen)).isSome
    rw [hposted, hpending, if_neg (by decide), Option.isSome_or, Option.isSome_some, Bool.or_true]

/-- Every row of `start` is still stored. -/
def RowsKept (start ledger : Ledger) : Prop :=
  ∀ row ∈ start.transactions.rows,
    ∃ row', ledger.transactions.find row.id = some row' ∧ Kept row row'

/-- A ledger keeps its rows. -/
theorem RowsKept.refl (ledger : Ledger) : RowsKept ledger ledger :=
  fun row hrow => ⟨row, KeyedTable.find_of_mem hrow, Kept.refl row⟩

/-- Only the transactions count. -/
theorem RowsKept.of_transactions {before after : Ledger}
    (h : after.transactions = before.transactions) : RowsKept before after := by
  intro row hrow
  rw [h]
  exact ⟨row, KeyedTable.find_of_mem hrow, Kept.refl row⟩

/-- Writing over a stored row keeps the rows when what is written is the row
that was stored at the start. -/
theorem RowsKept.put {start ledger : Ledger} {new : LedgerTransaction} (h : RowsKept start ledger)
    (hnew : ∀ row ∈ start.transactions.rows, row.id = new.id → Kept row new) :
    RowsKept start { ledger with transactions := ledger.transactions.put new } := by
  intro row hrow
  by_cases hid : row.id = new.id
  · exact ⟨new, by rw [hid]; exact KeyedTable.find_put_self _ _, hnew row hrow hid⟩
  · obtain ⟨row', hfind, hkept⟩ := h row hrow
    exact ⟨row', by rw [KeyedTable.find_put_other _ hid, hfind], hkept⟩

section
variable {host : Host}

/-- **One row.** -/
theorem rowsKept_upsertStep {aliases : List (String × LedgerTransaction)} {start : Ledger}
    {state : UpsertSummary × Ledger} {row : LedgerTransaction} (h : RowsKept start state.2)
    (haliases : ∀ id canonical, aliases.lookup id = some canonical →
      canonical ∈ start.transactions.rows) :
    RowsKept start (upsertStep host aliases state row).2 := by
  obtain ⟨summary, ledger⟩ := state
  unfold upsertStep
  dsimp only
  cases hown : ledger.transactions.find row.id with
  | none =>
      cases halias : aliases.lookup row.id with
      | none =>
          apply h.put
          intro row₀ hrow₀ hid
          obtain ⟨row', hfind, -⟩ := h row₀ hrow₀
          rw [hid, row.stored_id, hown] at hfind
          cases hfind
      | some existing =>
          -- the alias was read when the batch began
          have hmem := haliases _ _ halias
          obtain ⟨stored, hfind, hkept⟩ := h existing hmem
          have hnew := @kept_refreshedRow host stored existing row hkept.frozen hkept.synthetic
          simp only [Option.none_or, Ledger.refresh, hfind]
          apply h.put
          intro row₀ hrow₀ hid
          obtain rfl := KeyedTable.eq_of_key_eq hrow₀ hmem (hid.trans hnew.id_eq)
          exact hnew
  | some stored =>
      have hid : stored.id = row.id := KeyedTable.key_of_find hown
      have hnew := @kept_refreshedRow host stored stored row rfl rfl
      simp only [Option.some_or, Ledger.refresh, hid, hown]
      apply h.put
      intro row₀ hrow₀ hid₀
      obtain ⟨row', hfind, hkept⟩ := h row₀ hrow₀
      rw [hid₀, hnew.id_eq, hid, hown] at hfind
      obtain rfl := Option.some.inj hfind
      exact hkept.trans hnew

/-- A row leaves the accounts alone. -/
theorem accounts_upsertStep (aliases : List (String × LedgerTransaction))
    (state : UpsertSummary × Ledger) (row : LedgerTransaction) :
    (upsertStep host aliases state row).2.accounts = state.2.accounts := by
  obtain ⟨summary, ledger⟩ := state
  unfold upsertStep
  dsimp only
  cases (ledger.transactions.find row.id).or (aliases.lookup row.id) with
  | none => rfl
  | some existing =>
      dsimp only [Ledger.refresh]
      cases ledger.transactions.find existing.id with
      | none => rfl
      | some stored => rfl

/-- The rows are kept and the accounts are as before. -/
structure KeepsFeed (before after : Ledger) : Prop where
  rows : RowsKept before after
  accounts : after.accounts = before.accounts

/-- Nothing was written. -/
theorem KeepsFeed.refl (ledger : Ledger) : KeepsFeed ledger ledger :=
  ⟨RowsKept.refl ledger, rfl⟩

/-- A batch keeps what the feed relies on. -/
theorem keepsFeed_upsert (ledger : Ledger) (faults : List Bool) (rows : List LedgerTransaction)
    (timezone : Option String) :
    KeepsFeed ledger
      (storeAfter (upsertTransactions host rows timezone ⟨ledger, faults⟩)).ledger := by
  cases hrun : upsertTransactions host rows timezone ⟨ledger, faults⟩ with
  | error e s =>
      have hsame : s.ledger = ledger := upsertTransactions_error host hrun
      change KeepsFeed ledger s.ledger
      rw [hsame]
      exact KeepsFeed.refl ledger
  | ok summary s =>
      obtain ⟨aliases, after, hresolved, hfold, hledger⟩ := upsertTransactions_ok host hrun
      change KeepsFeed ledger s.ledger
      rw [hledger]
      have hafter : KeepsFeed ledger (summary, after).2 := by
        rw [← hfold]
        refine @Runs.run_invariant _ _ _
          (fun state : UpsertSummary × Ledger => KeepsFeed ledger state.2) _
          (KeepsFeed.refl ledger) ?_ rows
        intro state row hstate
        refine ⟨rowsKept_upsertStep hstate.rows fun _ _ => batchAliases_stored hresolved, ?_⟩
        rw [accounts_upsertStep, hstate.accounts]
      exact ⟨hafter.rows, hafter.accounts⟩

/-- A statement that writes other tables keeps the feed. -/
theorem keepsFeed_statement {effect : Ledger → Except BridgeError Ledger} {ledger : Ledger}
    (heffect : ∀ after, effect ledger = .ok after →
      after.transactions = ledger.transactions ∧ after.accounts = ledger.accounts)
    (faults : List Bool) :
    KeepsFeed ledger (storeAfter (statement effect ⟨ledger, faults⟩)).ledger := by
  have hrun := @ensures_statement effect ledger ⟨ledger, faults⟩ rfl
  cases hstatement : statement effect ⟨ledger, faults⟩ with
  | ok u s =>
      rw [hstatement] at hrun
      obtain ⟨hrows, haccounts⟩ := heffect s.ledger hrun
      exact ⟨RowsKept.of_transactions hrows, haccounts⟩
  | error e s =>
      rw [hstatement] at hrun
      change KeepsFeed ledger s.ledger
      rw [hrun]
      exact KeepsFeed.refl ledger

/-- The feed's tables are as before. -/
def SameFeed (before after : Session) : Prop :=
  after.ledger.transactions = before.ledger.transactions ∧
    after.ledger.accounts = before.ledger.accounts

/-- A holding leaves transactions and accounts alone, -/
theorem keeps_upsertHolding (holding : LedgerHolding) : Keeps SameFeed (upsertHolding holding) := by
  intro s
  unfold upsertHolding statement
  dsimp only
  split_ifs
  · exact ⟨rfl, rfl⟩
  · exact ⟨rfl, rfl⟩

/-- and so does a batch of them. -/
theorem keepsFeed_holdings (ledger : Ledger) (faults : List Bool) (rows : List LedgerHolding) :
    KeepsFeed ledger (storeAfter (upsertHoldings rows ⟨ledger, faults⟩)).ledger := by
  have hloop : Keeps SameFeed (rows.foldlM (fun _ row => upsertHolding row) ()) :=
    keeps_foldlM (fun _ => ⟨rfl, rfl⟩)
      (fun _ _ _ hab hbc => ⟨hbc.1.trans hab.1, hbc.2.trans hab.2⟩) rows
      (fun _ row _ => keeps_upsertHolding row) ()
  have hcall : Keeps SameFeed (upsertHoldings rows) := by
    unfold upsertHoldings
    exact hloop.transaction fun _ _ => ⟨rfl, rfl⟩
  obtain ⟨hrows, haccounts⟩ := hcall ⟨ledger, faults⟩
  exact ⟨RowsKept.of_transactions hrows, haccounts⟩

/-- What an event may do to the tables of the feed: only a maintenance run
takes a row away, and only `upsertAccount` writes accounts. -/
structure EventEffect (event : FeedEvent) (before after : Ledger) : Prop where
  rows : ∀ row ∈ before.transactions.rows,
    (∃ row', after.transactions.find row.id = some row' ∧ Kept row row') ∨
      event.Merges row.id after
  accounts : ∀ account ∈ before.accounts.rows,
    ∃ account', after.accounts.find account.id = some account' ∧
      (RestatesAccount before event after →
        account'.company = account.company ∧ account'.kind = account.kind)

/-- What keeps the feed is an event's effect. -/
theorem KeepsFeed.effect {event : FeedEvent} {before after : Ledger} (h : KeepsFeed before after) :
    EventEffect event before after where
  rows := fun row hrow => .inl (h.rows row hrow)
  accounts := by
    intro account haccount
    rw [h.accounts]
    exact ⟨account, KeyedTable.find_of_mem haccount, fun _ => ⟨rfl, rfl⟩⟩

/-- The effect of an account, -/
theorem effect_account (time : Instant) (record : LedgerAccount) (faults : List Bool)
    (ledger : Ledger) :
    EventEffect (.write time (.call (.account record)) faults) ledger
      (feedStep host ledger (.write time (.call (.account record)) faults)) := by
  change EventEffect _ ledger (storeAfter (upsertAccount record ⟨ledger, faults⟩)).ledger
  unfold upsertAccount statement
  dsimp only
  split_ifs
  · exact (KeepsFeed.refl ledger).effect
  · refine ⟨fun row hrow => .inl ⟨row, KeyedTable.find_of_mem hrow, Kept.refl row⟩, ?_⟩
    intro account haccount
    have hfind := KeyedTable.find_of_mem haccount
    by_cases hid : account.id = record.id
    · rw [hid] at hfind ⊢
      refine ⟨_, KeyedTable.find_put_self _ _, ?_⟩
      intro hrestates
      exact hrestates account hfind
    · refine ⟨account, ?_, fun _ => ⟨rfl, rfl⟩⟩
      rw [← hfind]
      exact KeyedTable.find_put_other _ hid

/-- and that of coalescing. -/
theorem effect_coalesce (time : Instant) (pairs : List ArchiveInstallmentPair) (timezone : String)
    (dryRun : Bool) (faults : List Bool) (ledger : Ledger) :
    EventEffect (.write time (.coalesce pairs timezone dryRun) faults) ledger
      (feedStep host ledger (.write time (.coalesce pairs timezone dryRun) faults)) := by
  change EventEffect _ ledger (storeAfter ((LedgerWrite.coalesce pairs timezone dryRun).program host
    ⟨ledger, faults⟩)).ledger
  unfold LedgerWrite.program
  dsimp only
  rw [storeAfter_discard]
  cases hrun : coalesceArchiveInstallments host pairs timezone dryRun ⟨ledger, faults⟩ with
  | error e s =>
      have hsame : s.ledger = ledger := coalesceArchiveInstallments_error hrun
      change EventEffect _ ledger s.ledger
      rw [hsame]
      exact (KeepsFeed.refl ledger).effect
  | ok summary s =>
      change EventEffect _ ledger s.ledger
      cases hdry : dryRun with
      | true =>
          obtain ⟨validated, -, -, hledger⟩ := coalesceArchiveInstallments_ok hrun
          rw [hdry, if_pos rfl] at hledger
          rw [hledger]
          exact (KeepsFeed.refl ledger).effect
      | false =>
          obtain ⟨validated, hreviewed, hprogress⟩ := coalesceProgress_of_ok hdry hrun
          refine ⟨?_, ?_⟩
          · intro row hrow
            have hfind := KeyedTable.find_of_mem hrow
            by_cases hlisted : row.id ∈ reviewedIds validated
            · obtain ⟨v, hv, hid⟩ := mem_reviewedIds.mp hlisted
              obtain ⟨pair, -, hpair⟩ := (exists_reviewed hreviewed).2 v hv
              rcases hid with hid | hid
              · obtain ⟨hcanonical, -⟩ := hpair.matches_unique
                obtain rfl := KeyedTable.eq_of_key_eq hrow hcanonical hid
                exact .inl ⟨_, hprogress.refreshed v hv, kept_refreshedRow _ rfl rfl⟩
              · rw [hid]
                exact .inr (hprogress.removed v hv)
            · exact .inl ⟨row, by rw [hprogress.unlisted _ hlisted, hfind], Kept.refl row⟩
          · intro account haccount
            rw [hprogress.frame]
            exact ⟨account, KeyedTable.find_of_mem haccount, fun _ => ⟨rfl, rfl⟩⟩

/-- **One event.** -/
theorem effect_feedStep (ledger : Ledger) (event : FeedEvent) :
    EventEffect event ledger (feedStep host ledger event) := by
  cases event with
  | poll ask => exact (KeepsFeed.refl ledger).effect
  | write time write faults =>
      cases write with
      | coalesce pairs timezone dryRun =>
          exact effect_coalesce time pairs timezone dryRun faults ledger
      | sourceState state =>
          apply KeepsFeed.effect
          change KeepsFeed ledger (storeAfter (upsertSourceState state ⟨ledger, faults⟩)).ledger
          apply keepsFeed_statement
          rintro after ⟨⟩
          exact ⟨rfl, rfl⟩
      | run record =>
          apply KeepsFeed.effect
          change KeepsFeed ledger (storeAfter (recordRun record ⟨ledger, faults⟩)).ledger
          apply keepsFeed_statement
          rintro after ⟨⟩
          exact ⟨rfl, rfl⟩
      | call ledgerCall =>
          cases ledgerCall with
          | account record => exact effect_account time record faults ledger
          | transactions rows timezone =>
              apply KeepsFeed.effect
              have hkeeps := @keepsFeed_upsert host ledger faults rows timezone
              rw [← storeAfter_discard (b := ())] at hkeeps
              exact hkeeps
          | holdings rows => exact (keepsFeed_holdings ledger faults rows).effect
          | payment record =>
              apply KeepsFeed.effect
              change KeepsFeed ledger
                (storeAfter (insertSyntheticPayment record ⟨ledger, faults⟩)).ledger
              apply keepsFeed_statement
              intro after hafter
              split_ifs at hafter
              cases hafter
              exact ⟨rfl, rfl⟩

end

/-! ## The row stands -/

section
variable {host : Host} {config : Config} {company : CompanyId} {id : String} {day : CivilDate}
  {seen : Instant} {ledger : Ledger} {account : LedgerAccount} {row : LedgerTransaction}

/-- The date is read off the booked date and the raw evidence. -/
theorem transactionDate_date_congr {old new : LedgerTransaction} (timezone : String)
    (creditCard : Bool) (hfrozen : new.frozen = old.frozen)
    (hsynthetic : new.synthetic = old.synthetic) (hraw : new.raw = old.raw) :
    (transactionDate host new timezone creditCard).date =
      (transactionDate host old timezone creditCard).date := by
  have hbooked : new.bookedDate = old.bookedDate := congrArg FrozenFields.bookedDate hfrozen
  unfold transactionDate
  rw [hsynthetic, hraw, hbooked]
  split_ifs
  · rfl
  · dsimp only
    cases sourceDate host (old.raw.field "date") timezone with
    | some purchase => rfl
    | none =>
        dsimp only
        cases sourceDate host
            ((old.raw.field "archiveMigration").bind (·.field "purchaseOrEventDate")) timezone with
        | some archived => rfl
        | none => rfl

/-- The row is shown under its date and carries its stamp. -/
structure Standing (host : Host) (config : Config) (company : CompanyId) (id : String)
    (day : CivilDate) (seen : Instant) (ledger : Ledger) (account : LedgerAccount)
    (row : LedgerTransaction) : Prop where
  shown : Shown company ledger account row
  ofId : row.id = id
  date : (transactionDate host row config.timezone (account.kind = .credit_card)).date = day.text
  stamp : row.firstSeen = seen ∨ row.postedSeenAt = some seen

/-- Some row stands for the id. -/
def RowStands (host : Host) (config : Config) (company : CompanyId) (id : String) (day : CivilDate)
    (seen : Instant) (ledger : Ledger) : Prop :=
  ∃ account row, Standing host config company id day seen ledger account row

/-- **One event.**  A row stands until its evidence changes. -/
theorem Standing.step (h : Standing host config company id day seen ledger account row)
    {event : FeedEvent} (haccount : RestatesAccount ledger event (feedStep host ledger event))
    (hevidence : EvidenceStands id ledger event (feedStep host ledger event)) :
    RowStands host config company id day seen (feedStep host ledger event) := by
  obtain ⟨hmerges, hraw⟩ := hevidence
  have heffect := @effect_feedStep host ledger event
  have hfind := KeyedTable.find_of_mem h.shown.stored
  rcases heffect.rows row h.shown.stored with ⟨row', hfind', hkept⟩ | hgone
  · obtain ⟨account', haccount', hsame⟩ := heffect.accounts account h.shown.known
    obtain ⟨hcompany, hkind⟩ := hsame haccount
    have hposted := hkept.posted h.shown.posted
    rw [h.ofId] at hfind hfind'
    have hraw' := hraw row row' hfind h.shown.posted hfind'
    have hfrozen := hkept.frozen
    refine ⟨account', row', ⟨KeyedTable.mem_of_find haccount', ?_,
      KeyedTable.mem_of_find hfind', ?_, hposted⟩, ?_, ?_, ?_⟩
    · rw [hcompany, h.shown.ofCompany]
    · have hid : account'.id = account.id := KeyedTable.key_of_find haccount'
      rw [hid, ← h.shown.ofAccount]
      exact congrArg FrozenFields.accountId hfrozen
    · rw [hkept.id_eq, h.ofId]
    · rw [hkind, transactionDate_date_congr _ _ hfrozen hkept.synthetic hraw', h.date]
    · rcases h.stamp with hfirst | hstamp
      · left
        rw [← hfirst]
        exact congrArg FrozenFields.firstSeen hfrozen
      · exact .inr (hkept.stamped seen hstamp)
  · rw [h.ofId] at hgone
    exact absurd hgone hmerges

/-- **A run.** -/
theorem RowStands.run (h : RowStands host config company id day seen ledger)
    {events : List FeedEvent}
    (haccounts : Runs.Along (feedStep host) RestatesAccount ledger events)
    (hevidence : Runs.Along (feedStep host) (EvidenceStands id) ledger events) :
    RowStands host config company id day seen (Runs.run (feedStep host) ledger events) := by
  refine @Runs.Along.run_invariant _ _ _ _ (RowStands host config company id day seen) _ _
    (Runs.along_and.mpr ⟨haccounts, hevidence⟩) h ?_
  rintro ledger₁ event ⟨account₁, row₁, hstanding⟩ ⟨haccount, hstands⟩
  exact hstanding.step haccount hstands

/-- What an event shows carries the stamp of its discovery. -/
theorem Shows.exists_discovered {event : FeedEvent}
    (h : Shows company ledger (feedStep host ledger event) account row) :
    ∃ seen, DiscoveredAt (ledger.transactions.find row.id) row seen ∧
      (row.firstSeen = seen ∨ row.postedSeenAt = some seen) := by
  obtain ⟨hshown, -⟩ := h
  cases hfind : ledger.transactions.find row.id with
  | none => exact ⟨row.firstSeen, rfl, .inl rfl⟩
  | some old =>
      cases hstamp : row.postedSeenAt with
      | some seen => exact ⟨seen, .inl hstamp, .inr rfl⟩
      | none =>
          refine ⟨row.firstSeen, .inr ⟨?_, hstamp, rfl⟩, .inl rfl⟩
          -- posting would have stamped the row
          have hid : old.id = row.id := KeyedTable.key_of_find hfind
          have hafter := KeyedTable.find_of_mem hshown.stored
          rcases (@effect_feedStep host ledger event).rows old (KeyedTable.mem_of_find hfind) with
            ⟨row', hfind', hkept⟩ | hgone
          · rw [hid, hafter] at hfind'
            obtain rfl := Option.some.inj hfind'
            cases hstatus : old.status with
            | posted => rfl
            | pending =>
                have hsome := hkept.stamps hstatus hshown.posted
                rw [hstamp] at hsome
                cases hsome
          · rw [hid] at hgone
            cases event with
            | poll ask => exact absurd hgone id
            | write time write faults =>
                cases write with
                | coalesce pairs timezone dryRun =>
                    change (feedStep host ledger _).transactions.find row.id = none at hgone
                    rw [hafter] at hgone
                    cases hgone
                | call ledgerCall => exact absurd hgone id
                | sourceState state => exact absurd hgone id
                | run record => exact absurd hgone id

end

/-! ## The polls -/

section
variable {host : Host} {config : Config} {company : CompanyId} {companyConfig : CompanyConfig}
  {id : String} {day : CivilDate} {seen : Instant} {ledger : Ledger}

/-- The polls of both parts. -/
@[simp] theorem polls_append (before after : List FeedEvent) :
    polls (before ++ after) = polls before ++ polls after :=
  List.filterMap_append

/-- The polls are among the events. -/
theorem mem_polls {events : List FeedEvent} {ask : Poll} :
    ask ∈ polls events ↔ FeedEvent.poll ask ∈ events := by
  unfold polls
  rw [List.mem_filterMap]
  constructor
  · rintro ⟨event, hevent, hask⟩
    cases event with
    | write time write faults => cases hask
    | poll ask' =>
        obtain rfl := Option.some.inj hask
        exact hevent
  · intro hevent
    exact ⟨_, hevent, rfl⟩

/-- Every poll is answered from the ledger it finds. -/
theorem mem_responses {events : List FeedEvent} {ask : Poll} (hask : ask ∈ polls events) :
    ∃ mid rest, events = mid ++ .poll ask :: rest ∧
      buildAccountsResponse host config ask.query ask.time (Runs.run (feedStep host) ledger mid) ∈
        responses host config ledger events := by
  induction events generalizing ledger with
  | nil => cases hask
  | cons event events ih =>
      cases event with
      | write time write faults =>
          obtain ⟨mid, rest, rfl, hmem⟩ :=
            @ih (feedStep host ledger (.write time write faults)) hask
          exact ⟨.write time write faults :: mid, rest, rfl, hmem⟩
      | poll ask' =>
          change ask ∈ ask' :: polls events at hask
          rcases List.mem_cons.mp hask with rfl | hask
          · exact ⟨[], events, rfl, List.mem_cons_self⟩
          · obtain ⟨mid, rest, rfl, hmem⟩ := @ih ledger hask
            exact ⟨.poll ask' :: mid, rest, rfl, List.mem_cons_of_mem _ hmem⟩

/-- The noon of a day, in milliseconds. -/
def noonInstant (day : CivilDate) : Instant := noonEpoch day * 1000

/-- A window that has one of the stamps admits the row. -/
theorem windowAdmits_of_has {ask : Poll} {row : LedgerTransaction}
    (hstop : noonInstant day < ask.window.stop)
    (hhas : ask.window.Has (noonInstant day) ∨ ask.window.Has seen)
    (hstamp : row.firstSeen = seen ∨ row.postedSeenAt = some seen) :
    WindowAdmits ask.query row day := by
  unfold noonInstant at hstop hhas
  constructor
  · rintro stop ⟨⟩
    change noonEpoch day * 1000 < (ask.stop.val : Int) * 1000 at hstop
    omega
  · rcases hhas with hdate | hseen
    · left
      rintro start ⟨⟩
      have hstart : (ask.start.val : Int) * 1000 ≤ noonEpoch day * 1000 := hdate.1
      omega
    · right
      have hinstant : InstantInWindow ask.query seen := by
        refine ⟨⟨ask.start, rfl, hseen.1⟩, ?_⟩
        rintro stop ⟨⟩
        exact hseen.2
      rcases hstamp with hfirst | hposted
      · left
        rw [hfirst]
        exact hinstant
      · exact .inr ⟨seen, hposted, hinstant⟩

/-- **A poll whose window has the date, or the stamp, serves the row.** -/
theorem RowStands.appears (h : RowStands host config company id day seen ledger)
    (henabled : (company, companyConfig) ∈ enabledCompanies config) (hday : DayFrom 100 day)
    {ask : Poll} (hstop : noonInstant day < ask.window.stop)
    (hhas : ask.window.Has (noonInstant day) ∨ ask.window.Has seen) :
    AppearsIn id (noonEpoch day)
      (buildAccountsResponse host config ask.query ask.time ledger) := by
  obtain ⟨account, row, ⟨hshown, hid, hdate, hstamp⟩⟩ := h
  have hserved : (row, transactionDate host row config.timezone (account.kind = .credit_card)) ∈
      servedRows host config account companyConfig ask.query ledger := by
    have hwindow : windowDates ask.query =
        some ⟨some (windowStartDate ask.start), some (windowEndDate ask.stop)⟩ := rfl
    rw [mem_servedRows hwindow rfl]
    refine ⟨hshown.stored, hshown.ofAccount, .inl hshown.posted, rfl, ?_⟩
    rw [inWindow_iff hwindow (hday.mono (by decide)) hdate]
    exact windowAdmits_of_has hstop hhas hstamp
  refine ⟨toSimpleFinAccount host config ask.query ask.time account companyConfig ledger, ?_, _,
    List.mem_map_of_mem hserved, hid, ?_⟩
  · exact mem_served.mpr ⟨_, henabled, account,
      ⟨KeyedTable.find_of_mem hshown.known, hshown.ofCompany, rfl⟩, rfl⟩
  · unfold toSimpleFinTransaction
    dsimp only
    rw [hshown.posted, if_neg (by decide), hdate, calendarDateToPostedEpoch_date host hday]

variable {delay : Nat}

/-- Windows that end in the future and start before the last poll leave no
gap. -/
theorem FeedHistory.seamless {events : List FeedEvent} (h : FeedHistory host company delay events) :
    Seamless ((polls events).map Poll.window) := by
  unfold Seamless
  rw [List.isChain_map]
  refine List.IsChain.imp_of_mem_imp ?_ h.rewinds
  intro p q hp _ hrewind
  have hforward : p.time < p.window.stop := h.forward p hp
  exact hrewind.trans ((Int.sub_le_self _ (Int.natCast_nonneg delay)).trans hforward.le)

/-- A poll shows nothing new. -/
theorem Shows.isWrite {event : FeedEvent} {account : LedgerAccount} {row : LedgerTransaction}
    (h : Shows company ledger (feedStep host ledger event) account row) :
    ∃ time write faults, event = .write time write faults := by
  cases event with
  | write time write faults => exact ⟨time, write, faults, rfl⟩
  | poll ask => exact absurd rfl (h.2 account row h.1)

end

/-- **Late delivery.**  In a history of an enabled company, polled with windows
that end in the future and start at least `delay` before the last poll: a row
that an event shows within `delay` of its discovery, after the first poll or
with a date that the first window has not started after, and whose evidence
stands from then on, is served by one of the later polls under its date, if one
of them ends after it. -/
theorem late_delivery (host : Host) (config : Config) (company : CompanyId)
    (companyConfig : CompanyConfig) (henabled : (company, companyConfig) ∈ enabledCompanies config)
    (delay : Nat) (before : List FeedEvent) (event : FeedEvent) (after : List FeedEvent)
    (hhistory : FeedHistory host company delay (before ++ event :: after))
    (account : LedgerAccount) (row : LedgerTransaction)
    (hshows : Shows company (feedLedger host before) (feedLedger host (before ++ [event]))
      account row)
    (day : CivilDate) (hday : DayFrom 100 day)
    (hdate : (transactionDate host row config.timezone (account.kind = .credit_card)).date =
      day.text)
    (hevidence : Runs.Along (feedStep host) (EvidenceStands row.id)
      (feedLedger host (before ++ [event])) after)
    (hfirst : polls before ≠ [] ∨
      ∀ first ∈ (polls after).head?, (first.start.val : Int) ≤ noonEpoch day)
    (hreached : ∃ ask ∈ polls after, noonEpoch day < ask.stop.val) :
    ∃ response ∈ responses host config (feedLedger host (before ++ [event])) after,
      AppearsIn row.id (noonEpoch day) response := by
  have hstep : feedLedger host (before ++ [event]) =
      feedStep host (feedLedger host before) event := by
    unfold feedLedger
    rw [Runs.run_append]
    rfl
  rw [hstep] at hshows hevidence ⊢
  obtain ⟨seen, hdiscovered, hstamp⟩ := hshows.exists_discovered
  obtain ⟨-, hshown, -⟩ := Runs.along_append.mp hhistory.shown
  obtain ⟨-, -, haccounts⟩ := Runs.along_append.mp hhistory.accounts
  obtain ⟨hearly, hlate⟩ := hshown account row hshows seen hdiscovered
  have hstands : RowStands host config company row.id day seen
      (feedStep host (feedLedger host before) event) :=
    ⟨account, row, hshows.1, rfl, hdate, hstamp⟩
  -- the polls are those before the event and those after it
  obtain ⟨time, write, faults, rfl⟩ := hshows.isWrite
  have hpolls : polls (before ++ .write time write faults :: after) = polls before ++ polls after :=
    polls_append before _
  have hseamless := hhistory.seamless
  have hrewinds := hhistory.rewinds
  have hforward := hhistory.forward
  rw [hpolls] at hseamless hrewinds hforward
  rw [List.map_append] at hseamless
  obtain ⟨-, hordered, hbefore⟩ := List.pairwise_append.mp hhistory.ordered
  obtain ⟨hafter, -⟩ := List.pairwise_cons.mp hordered
  have hseen : ∀ w ∈ (polls after).map Poll.window, seen < w.stop := by
    intro w hw
    obtain ⟨ask, hask, rfl⟩ := List.mem_map.mp hw
    have hlater : time ≤ ask.time := hafter _ (mem_polls.mp hask)
    exact (hlate.trans hlater).trans_lt (hforward ask (List.mem_append_right _ hask))
  have hstarted : ∀ w ∈ ((polls after).map Poll.window).head?,
      w.start ≤ seen ∨ w.start ≤ noonInstant day := by
    intro w hw
    rw [List.head?_map] at hw
    obtain ⟨first, hfirstPoll, rfl⟩ := Option.mem_map.mp hw
    rcases hfirst with hpolled | hdated
    · left
      obtain ⟨last, hlast⟩ := Option.isSome_iff_exists.mp (List.getLast?_isSome.mpr hpolled)
      obtain ⟨-, -, hlink⟩ := List.isChain_append.mp hrewinds
      have hrewind := hlink last hlast first hfirstPoll
      have hlastTime : last.time ≤ time :=
        hbefore _ (mem_polls.mp (List.mem_of_getLast? hlast)) _ List.mem_cons_self
      exact (hrewind.trans (Int.sub_le_sub_right hlastTime _)).trans hearly
    · right
      have hstart := hdated first hfirstPoll
      change (first.start.val : Int) * 1000 ≤ noonEpoch day * 1000
      omega
  have hends : ∃ w ∈ (polls after).map Poll.window, noonInstant day < w.stop := by
    obtain ⟨ask, hask, hstop⟩ := hreached
    refine ⟨ask.window, List.mem_map_of_mem hask, ?_⟩
    change noonEpoch day * 1000 < (ask.stop.val : Int) * 1000
    omega
  obtain ⟨w, hw, hstop, hhas⟩ := Seamless.exists_has_either
    (List.isChain_append.mp hseamless).2.1 hseen hstarted hends
  obtain ⟨ask, hask, rfl⟩ := List.mem_map.mp hw
  -- the poll finds the row standing
  obtain ⟨mid, rest, rfl, hmem⟩ := @mem_responses host config
    (feedStep host (feedLedger host before) (.write time write faults)) after ask hask
  have hfound := hstands.run (Runs.along_append.mp haccounts).1 (Runs.along_append.mp hevidence).1
  exact ⟨_, hmem, hfound.appears henabled hday hstop hhas⟩

/-- A purchase of January that the portal first reports a year later. -/
def lateCoffee : LedgerTransaction :=
  { pendingCoffee with status := .posted, firstSeen := 1800000000500, lastSeen := 1800000000500 }

/-- A poll before the coffee, -/
def firstPoll : Poll :=
  { time := 1800000000000, start := ⟨1790000000, by decide⟩, stop := ⟨1810000000, by decide⟩,
    pending := false }

/-- and one after it. -/
def secondPoll : Poll :=
  { time := 1800000002000, start := ⟨1799999999, by decide⟩, stop := ⟨1810000000, by decide⟩,
    pending := false }

/-- What happened before. -/
def beforeCoffee : List FeedEvent :=
  [.write 0 (.call (.account calAccount)) [], .poll firstPoll]

/-- The coffee is reported late. -/
def coffeeEvent : FeedEvent :=
  .write 1800000001000 (.call (.transactions [lateCoffee] (some "Asia/Jerusalem"))) []

/-- The ledger before and after it. -/
theorem rows_coffee :
    (feedLedger asciiHost (beforeCoffee ++ [coffeeEvent])).transactions.rows = [lateCoffee] ∧
      (feedLedger asciiHost beforeCoffee).transactions.rows = [] := by
  decide +kernel

/-- Nothing is shown while no row is stored. -/
theorem shownInTime_of_empty {company : CompanyId} {delay : Nat} {ledger after : Ledger}
    {event : FeedEvent} (h : after.transactions.rows = []) :
    ShownInTime company delay ledger event after := by
  rintro account row ⟨hshown, -⟩
  have hstored := hshown.stored
  rw [h] at hstored
  cases hstored

/-- The history of the coffee. -/
theorem history_coffee :
    FeedHistory asciiHost "visaCal" 1000 (beforeCoffee ++ coffeeEvent :: [.poll secondPoll]) where
  ordered := by decide
  forward := by decide
  rewinds := by decide
  accounts := by
    refine ⟨?_, trivial, trivial, trivial, trivial⟩
    intro stored hstored
    cases hstored
  shown := by
    refine ⟨shownInTime_of_empty (by decide +kernel), shownInTime_of_empty (by decide +kernel),
      ?_, ?_, trivial⟩
    · rintro account row ⟨hshown, -⟩ seen hdiscovered
      have hstored : row ∈
          (feedLedger asciiHost (beforeCoffee ++ [coffeeEvent])).transactions.rows := hshown.stored
      rw [rows_coffee.1] at hstored
      obtain rfl := List.mem_singleton.mp hstored
      obtain rfl : lateCoffee.firstSeen = seen := hdiscovered
      decide
    · rintro account row ⟨hshown, hnew⟩
      exact absurd rfl (hnew account row hshown)

/-- The coffee is before both windows, and served by the second poll. -/
theorem late_delivery_coffee :
    noonEpoch ⟨2026, 1, 5⟩ < firstPoll.start.val ∧ noonEpoch ⟨2026, 1, 5⟩ < secondPoll.start.val ∧
      ∃ response ∈ responses asciiHost calConfig
          (feedLedger asciiHost (beforeCoffee ++ [coffeeEvent])) [.poll secondPoll],
        AppearsIn lateCoffee.id (noonEpoch ⟨2026, 1, 5⟩) response := by
  refine ⟨by decide, by decide, ?_⟩
  refine late_delivery asciiHost calConfig "visaCal" calCompany (by decide) 1000 beforeCoffee
    coffeeEvent [.poll secondPoll] history_coffee calAccount lateCoffee
    ⟨⟨?_, rfl, ?_, rfl, rfl⟩, ?_⟩ ⟨2026, 1, 5⟩ (by decide) (by decide +kernel) ⟨⟨id, ?_⟩, trivial⟩
    (.inl (by decide)) ?_
  · decide +kernel
  · rw [rows_coffee.1]
    exact List.mem_singleton_self _
  · intro account old hshown
    have hstored := hshown.stored
    rw [rows_coffee.2] at hstored
    cases hstored
  · intro old new hold _ hnew
    rw [Option.some.inj (hnew.symm.trans hold)]
  · exact ⟨secondPoll, List.mem_cons_self, by decide⟩

end SimplefinBridge
