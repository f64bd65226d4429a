import SimplefinBridge.Payload
import SimplefinBridge.Scheduler

/-!
# Atomic ingestion

`applySuccess` is a sequence of ledger calls: the accounts one by one, the
transactions, the holdings, and then the payments of one account after the
other.  Each call takes effect as a whole or not at all, but nothing wraps the
sequence, so what is written before a step that fails stays written.
`applySuccess_atomic_iff` says when this does not show: when nothing is written
before the last step (`WritesLast`).

The account records are written first, so a failure after them is visible in
the feed: a pending row that the scrape still reported is older than its
account and is no longer served (`failed_ingestion_hides_pending`).
-/

namespace SimplefinBridge

open Transactional

/-! ## Untouched ledgers -/

/-- The tables that hold the data of the bank. -/
structure SameTables (before after : Ledger) : Prop where
  accounts : after.accounts = before.accounts
  transactions : after.transactions = before.transactions
  holdings : after.holdings = before.holdings
  syntheticPayments : after.syntheticPayments = before.syntheticPayments

/-- The tables are as they were, and so is every response. -/
structure Untouched (host : Host) (config : Config) (before after : Ledger) : Prop extends
    SameTables before after where
  responses : ∀ query now, buildAccountsResponse host config query now after =
    buildAccountsResponse host config query now before

/-- A ledger has its own tables. -/
theorem SameTables.refl (ledger : Ledger) : SameTables ledger ledger := ⟨rfl, rfl, rfl, rfl⟩

/-- A response is made from the tables and the source states. -/
theorem SameTables.untouched {before after : Ledger} (h : SameTables before after)
    (hstates : after.sourceStates = before.sourceStates) (host : Host) (config : Config) :
    Untouched host config before after := by
  refine ⟨h, fun query now => ?_⟩
  unfold buildAccountsResponse companyErrors selectedAccounts listAccounts toSimpleFinAccount
    transactionsFor servedRows listTransactions listHoldings
  rw [h.accounts, h.transactions, h.holdings, hstates]

/-- What a response serves. -/
theorem mem_served {host : Host} {config : Config} {query : AccountsQuery} {now : Instant}
    {ledger : Ledger} {served : SimpleFinAccount} :
    served ∈ (buildAccountsResponse host config query now ledger).accounts ↔
      ∃ entry ∈ enabledCompanies config, ∃ account : LedgerAccount,
        (ledger.accounts.find account.id = some account ∧ account.company = entry.1 ∧
          query.accountIds.all (account.id ∈ ·) = true) ∧
        toSimpleFinAccount host config query now account entry.2 ledger = served := by
  unfold buildAccountsResponse selectedAccounts listAccounts
  simp only [List.mem_flatMap, List.mem_map, List.mem_filter, List.mem_insertionSort,
    KeyedTable.mem_iff_find, decide_eq_true_eq, and_assoc]

/-! ## What an ingestion writes -/

section
variable (host : Host) (config : Config) (companyConfig : CompanyConfig)
  (result : SourceFetchResult) (today : IsoDate) (emittedAt : String → Instant) (ledger : Ledger)

/-- Whichever step of the ingestion fails, the ledger is untouched. -/
def IngestsAtomically : Prop :=
  ∀ faults e s, applySuccess host config companyConfig result today emittedAt ⟨ledger, faults⟩ =
    .error e s → Untouched host config ledger s.ledger

/-- The account is stored as the scrape reports it. -/
def StoredAsReported (account : LedgerAccount) : Prop :=
  ∃ stored, ledger.accounts.find account.id = some stored ∧
    { account with firstSeen := stored.firstSeen } = stored

/-- The account as the payments are computed for it. -/
def Ledger.current (ledger : Ledger) (account : LedgerAccount) : LedgerAccount :=
  (ledger.accounts.find account.id).getD account

/-- No payment of the account can be recorded: none is due, or the id of the
first one cannot be written or is taken. -/
def RecordsNothing (account : LedgerAccount) : Prop :=
  ∀ group groups id, dueGroups host account companyConfig today ledger = .ok (group :: groups) →
    syntheticPaymentId account.company account.accountNumber group.chargeDate = .ok id →
    (ledger.syntheticPayments.find id).isSome = true

/-- The upsert of the transactions, by itself. -/
def transactionsOutcome : EStateM.Result BridgeError Session UpsertSummary :=
  upsertTransactions host result.transactions (some config.timezone) ⟨ledger, []⟩

/-- Nothing is written before the last step that can fail. -/
structure WritesLast : Prop where
  accounts : ∀ account ∈ result.accounts, StoredAsReported ledger account
  /-- The reported transactions change no stored one. -/
  transactions : result.accounts ≠ [] ∨ result.holdings ≠ [] → ∀ summary s,
    transactionsOutcome host config result ledger = .ok summary s →
    s.ledger.transactions = ledger.transactions
  /-- The reported holdings change no stored one. -/
  holdings : result.accounts ≠ [] → ∀ summary s, transactionsOutcome host config result ledger = .ok summary s →
    ∀ s', upsertHoldings result.holdings s = .ok () s' → s'.ledger.holdings = ledger.holdings
  /-- No payment is recorded, as far as the computation gets. -/
  payments : ∀ summary s, transactionsOutcome host config result ledger = .ok summary s →
    ∀ done account rest, result.accounts = done ++ account :: rest →
      (∀ other ∈ done, dueGroups host (ledger.current other) companyConfig today ledger = .ok []) →
      RecordsNothing host companyConfig today ledger (ledger.current account)

end

/-! ## Calls that write nothing -/

section
variable {host : Host} {config : Config} {companyConfig : CompanyConfig}
  {result : SourceFetchResult} {today : IsoDate} {emittedAt : String → Instant} {ledger : Ledger}

/-- The ledger once an account is upserted. -/
def Ledger.withAccount (ledger : Ledger) (account : LedgerAccount) : Ledger :=
  let firstSeen := ((ledger.accounts.find account.id).map (·.firstSeen)).getD account.firstSeen
  { ledger with accounts := ledger.accounts.put { account with firstSeen } }

/-- An account that is stored already is not changed, -/
theorem StoredAsReported.withAccount {account : LedgerAccount} (h : StoredAsReported ledger account) :
    ledger.withAccount account = ledger := by
  obtain ⟨stored, hfound, hsame⟩ := h
  unfold Ledger.withAccount
  dsimp only
  rw [hfound, Option.map_some, Option.getD_some, hsame,
    KeyedTable.put_of_mem (KeyedTable.mem_of_find hfound)]

/-- and only such a one is not. -/
theorem storedAsReported_of_withAccount {account : LedgerAccount}
    (h : (ledger.withAccount account).accounts = ledger.accounts) :
    StoredAsReported ledger account := by
  have hfound := KeyedTable.find_put_self ledger.accounts { account with
    firstSeen := ((ledger.accounts.find account.id).map (·.firstSeen)).getD account.firstSeen }
  change (ledger.withAccount account).accounts.find account.id = _ at hfound
  rw [h] at hfound
  refine ⟨_, hfound, ?_⟩
  rw [hfound]

/-- So upserting it changes nothing. -/
theorem ensures_upsertAccount (account : LedgerAccount) (h : StoredAsReported ledger account) :
    Ensures (fun s => s.ledger = ledger) (upsertAccount account) (fun _ s => s.ledger = ledger)
      (fun s => s.ledger = ledger) := by
  refine ensures_statement.weaken (fun _ hs => hs) ?_ (fun _ hs => hs)
  intro _ s hs
  exact (Except.ok.inj hs).symm.trans h.withAccount

/-- Accounts stored as reported are upserted without a trace. -/
theorem run_accounts {accounts : List LedgerAccount}
    (h : ∀ account ∈ accounts, StoredAsReported ledger account) :
    accounts.foldlM (fun _ account => upsertAccount account) () (⟨ledger, []⟩ : Session) =
      .ok () ⟨ledger, []⟩ := by
  induction accounts with
  | nil => rfl
  | cons account accounts ih =>
      have hstep : upsertAccount account ⟨ledger, []⟩ = .ok () ⟨ledger, []⟩ := by
        change EStateM.Result.ok () (⟨ledger.withAccount account, []⟩ : Session) = _
        rw [(h account List.mem_cons_self).withAccount]
      rw [List.foldlM_cons, bind_of_ok hstep]
      exact ih fun other hother => h other (List.mem_cons_of_mem _ hother)

/-- One group of the loop, when no payment can be recorded. -/
theorem ensures_emitPayment_nothing {account : LedgerAccount} {now : Instant} {cutoff : IsoDate}
    {emitted : List IsoDate} {partialUntil : Option IsoDate} {ordered done rest : List ChargeGroup}
    {group : ChargeGroup} {created : List LedgerTransaction}
    (hnothing : ∀ first later id, ordered.filter (isDue host cutoff emitted partialUntil) =
        first :: later →
      syntheticPaymentId account.company account.accountNumber first.chargeDate = .ok id →
      (ledger.syntheticPayments.find id).isSome = true)
    (hsplit : ordered = done ++ group :: rest) :
    Ensures (fun s => (created = [] ∧
        done.filter (isDue host cutoff emitted partialUntil) = []) ∧ s.ledger = ledger)
      (emitPayment host account companyConfig now cutoff emitted partialUntil created group)
      (fun created' s => (created' = [] ∧
        (done ++ [group]).filter (isDue host cutoff emitted partialUntil) = []) ∧ s.ledger = ledger)
      (fun s => s.ledger = ledger) := by
  apply ensures_of_imp
  rintro ⟨rfl, hdone⟩
  unfold emitPayment
  by_cases hdue : isDue host cutoff emitted partialUntil group = true
  · rw [if_pos hdue]
    refine Ensures.bind ensures_liftExcept ?_
    intro id
    apply ensures_of_imp
    intro hid
    have htaken : (ledger.syntheticPayments.find id).isSome = true := by
      refine hnothing group (rest.filter (isDue host cutoff emitted partialUntil)) id ?_ hid
      rw [hsplit, List.filter_append, hdone, List.filter_cons_of_pos hdue, List.nil_append]
    apply Ensures.bind (M := fun _ _ => False)
    · refine ensures_statement.weaken (fun _ hs => hs) ?_ (fun _ hs => hs)
      intro _ s hs
      rw [if_pos htaken] at hs
      cases hs
    · exact fun _ _ h => h.elim
  · rw [if_neg hdue]
    apply ensures_pure
    intro s hs
    rw [List.filter_append, hdone, List.filter_cons_of_neg hdue]
    exact ⟨⟨rfl, rfl⟩, hs⟩

/-- The payments of an account of which none can be recorded. -/
theorem ensures_ingestPayments_nothing {account : LedgerAccount}
    (h : RecordsNothing host companyConfig today ledger (ledger.current account)) :
    Ensures (fun s => s.ledger = ledger) (ingestPayments host companyConfig today emittedAt account)
      (fun _ s => dueGroups host (ledger.current account) companyConfig today ledger = .ok [] ∧
        s.ledger = ledger)
      (fun s => s.ledger = ledger) := by
  unfold ingestPayments
  refine Ensures.bind ensures_query ?_
  intro stored
  apply ensures_of_imp
  rintro rfl
  apply Ensures.bind (M := fun created s => (created = [] ∧
    dueGroups host (ledger.current account) companyConfig today ledger = .ok []) ∧ s.ledger = ledger)
  · apply ensures_computeSyntheticPayments_loop host (fun _ hs => hs)
    · exact fun hnone s hs => ⟨⟨rfl, hnone⟩, hs⟩
    · intro cutoff emitted partialUntil ordered hgroups
      have hloop : Ensures
          (fun s => (([] : List LedgerTransaction) = [] ∧
            ([] : List ChargeGroup).filter (isDue host cutoff emitted partialUntil) = []) ∧
              s.ledger = ledger)
          (ordered.foldlM (emitPayment host (ledger.current account) companyConfig
            (emittedAt account.id) cutoff emitted partialUntil) [])
          (fun created s => (created = [] ∧
            ordered.filter (isDue host cutoff emitted partialUntil) = []) ∧ s.ledger = ledger)
          (fun s => s.ledger = ledger) := by
        refine ensures_foldlM_history (fun done created (s : Session) => (created = [] ∧
          done.filter (isDue host cutoff emitted partialUntil) = []) ∧ s.ledger = ledger) ?_ []
        intro done group rest created hsplit
        refine ensures_emitPayment_nothing (fun first later id hfirst => ?_) hsplit
        exact h first later id (hgroups.trans (congrArg Except.ok hfirst))
      refine hloop.weaken (fun s hs => ⟨⟨rfl, rfl⟩, hs⟩) ?_ (fun _ hs => hs)
      rintro created s ⟨⟨rfl, hnone⟩, hs⟩
      exact ⟨⟨rfl, hgroups.trans (congrArg Except.ok hnone)⟩, hs⟩
  · intro created
    apply ensures_of_imp
    rintro ⟨rfl, hnone⟩
    exact ensures_pure fun s hs => ⟨hnone, hs⟩

/-- The upsert of the transactions by itself, and from any faults. -/
theorem ensures_transactionsOutcome :
    Ensures (fun s => s.ledger = ledger)
      (upsertTransactions host result.transactions (some config.timezone))
      (fun summary s => transactionsOutcome host config result ledger = .ok summary ⟨s.ledger, []⟩)
      (fun s => s.ledger = ledger) := by
  rintro s rfl
  cases hrun : upsertTransactions host result.transactions (some config.timezone) s with
  | ok summary s' => exact (statementwise_upsertTransactions host _ _).alone s summary s' hrun
  | error e s' => exact upsertTransactions_error host hrun

/-- What else the upsert of the transactions leaves alone. -/
theorem SameTables.of_upserted {summary : UpsertSummary} {s : Session}
    (h : transactionsOutcome host config result ledger = .ok summary s)
    (htransactions : s.ledger.transactions = ledger.transactions) : SameTables ledger s.ledger := by
  have hframe : Frames (fun l : Ledger => (l.accounts, l.holdings, l.syntheticPayments))
      (upsertTransactions host result.transactions (some config.timezone)) :=
    frames_upsertTransactions host (fun _ _ => rfl) (fun _ _ => rfl) _ _
  have hview := hframe ⟨ledger, []⟩
  unfold transactionsOutcome at h
  rw [h] at hview
  obtain ⟨haccounts, hrest⟩ := Prod.mk.inj hview
  obtain ⟨hholdings, hpayments⟩ := Prod.mk.inj hrest
  exact ⟨haccounts, htransactions, hholdings, hpayments⟩

/-- The payments, once nothing before them was written. -/
theorem ensures_payments (h : WritesLast host config companyConfig result today ledger)
    {summary : UpsertSummary} {s₁ : Session}
    (hupserted : transactionsOutcome host config result ledger = .ok summary s₁)
    (hsame : SameTables ledger s₁.ledger) :
    Ensures (fun s => s.ledger = s₁.ledger)
      (result.accounts.foldlM
        (fun _ account => ingestPayments host companyConfig today emittedAt account) ())
      (fun _ s => s.ledger = s₁.ledger) (fun s => s.ledger = s₁.ledger) := by
  have hdue : ∀ account, dueGroups host (s₁.ledger.current account) companyConfig today s₁.ledger =
      dueGroups host (ledger.current account) companyConfig today ledger := by
    intro account
    unfold Ledger.current
    rw [hsame.accounts]
    exact dueGroups_congr host _ _ _ hsame.transactions hsame.syntheticPayments
  have hloop : Ensures
      (fun s => (∀ other ∈ ([] : List LedgerAccount),
        dueGroups host (ledger.current other) companyConfig today ledger = .ok []) ∧
          s.ledger = s₁.ledger)
      (result.accounts.foldlM
        (fun _ account => ingestPayments host companyConfig today emittedAt account) ())
      (fun _ s => (∀ other ∈ result.accounts,
        dueGroups host (ledger.current other) companyConfig today ledger = .ok []) ∧
          s.ledger = s₁.ledger)
      (fun s => s.ledger = s₁.ledger) := by
    refine ensures_foldlM_history (fun done _ (s : Session) => (∀ other ∈ done,
      dueGroups host (ledger.current other) companyConfig today ledger = .ok []) ∧
        s.ledger = s₁.ledger) ?_ ()
    intro done account rest _ hsplit
    apply ensures_of_imp
    intro hdone
    have hnothing : RecordsNothing host companyConfig today s₁.ledger (s₁.ledger.current account) := by
      intro group groups id hgroups hid
      rw [hdue] at hgroups
      unfold Ledger.current at hid
      rw [hsame.accounts] at hid
      rw [hsame.syntheticPayments]
      exact h.payments summary s₁ hupserted done account rest hsplit hdone group groups id hgroups hid
    refine (ensures_ingestPayments_nothing hnothing).weaken (fun _ hs => hs) ?_ (fun _ hs => hs)
    rintro _ s ⟨hnone, hs⟩
    refine ⟨fun other hother => ?_, hs⟩
    rcases List.mem_append.mp hother with hbefore | hlast
    · exact hdone other hbefore
    · rw [List.mem_singleton.mp hlast, ← hdue]
      exact hnone
  refine hloop.weaken (fun s hs => ⟨fun _ h => absurd h List.not_mem_nil, hs⟩) (fun _ s hs => hs.2)
    (fun _ hs => hs)

/-- Holdings that change no stored one change nothing. -/
theorem upsertHoldings_kept {rows : List LedgerHolding} {u : Unit} {s : Session}
    (h : upsertHoldings rows ⟨ledger, []⟩ = .ok u s) (hkept : s.ledger.holdings = ledger.holdings) :
    s.ledger = ledger := by
  have hframe : Frames (fun l : Ledger => { l with holdings := ledger.holdings })
      (upsertHoldings rows) := frames_upsertHoldings (fun _ _ => rfl) rows
  have hview := hframe ⟨ledger, []⟩
  rw [h] at hview
  calc s.ledger = { s.ledger with holdings := s.ledger.holdings } := rfl
    _ = { s.ledger with holdings := ledger.holdings } := by rw [hkept]
    _ = ledger := hview

/-- Holdings are upserted when no statement is refused. -/
theorem run_upsertHoldings (rows : List LedgerHolding) (ledger : Ledger) :
    ∃ s, upsertHoldings rows ⟨ledger, []⟩ = .ok () s := by
  have hloop : ∀ (rows : List LedgerHolding) (ledger : Ledger), ∃ s,
      rows.foldlM (fun _ row => upsertHolding row) () (⟨ledger, []⟩ : Session) = .ok () s := by
    intro rows
    induction rows with
    | nil => exact fun ledger => ⟨_, rfl⟩
    | cons row rows ih =>
        intro ledger
        obtain ⟨s, hs⟩ := ih { ledger with holdings := ledger.holdings.put { row with
          firstSeen := ((ledger.holdings.find row.id).map (·.firstSeen)).getD row.firstSeen } }
        exact ⟨s, hs⟩
  obtain ⟨s, hs⟩ := hloop rows ledger
  refine ⟨s, ?_⟩
  unfold upsertHoldings transaction
  exact transaction_ok.mpr hs

/-- **Nothing written early, nothing left behind.** -/
theorem ensures_applySuccess (h : WritesLast host config companyConfig result today ledger) :
    Ensures (fun s => s.ledger = ledger)
      (applySuccess host config companyConfig result today emittedAt) (fun _ _ => True)
      (fun s => SameTables ledger s.ledger) := by
  have hstill : ∀ s : Session, s.ledger = ledger → SameTables ledger s.ledger := by
    rintro s rfl
    exact SameTables.refl _
  unfold applySuccess
  apply Ensures.bind (M := fun _ s => s.ledger = ledger)
  · exact (ensures_foldlM _ (fun _ account haccount =>
      ensures_upsertAccount account (h.accounts account haccount)) ()).weaken (fun _ hs => hs)
      (fun _ _ hs => hs) hstill
  · intro _
    refine Ensures.bind (ensures_transactionsOutcome.weaken (fun _ hs => hs) (fun _ _ hs => hs) hstill) ?_
    intro summary s₁ hupserted
    have hrun : Ensures (fun s => s.ledger = s₁.ledger) (do
          upsertHoldings result.holdings
          result.accounts.foldlM
            (fun _ account => ingestPayments host companyConfig today emittedAt account) ()
          return ({ accountsSeen := result.accounts.length
                    transactionsSeen := result.transactions.length
                    transactionsNew := summary.inserted
                    anomalies := summary.anomalies.length } : Counts))
        (fun _ _ => True) (fun s => SameTables ledger s.ledger) := by
      by_cases hlater : result.accounts ≠ [] ∨ result.holdings ≠ []
      · have hsame := SameTables.of_upserted hupserted (h.transactions hlater summary _ hupserted)
        have herror : ∀ s : Session, s.ledger = s₁.ledger → SameTables ledger s.ledger := by
          intro s hs
          rw [hs]
          exact hsame
        by_cases haccounts : result.accounts = []
        · -- the holdings are the last step
          rw [haccounts]
          apply Ensures.bind (M := fun _ _ => True)
          · intro s hs
            cases hheld : upsertHoldings result.holdings s with
            | ok u s' => trivial
            | error e s' => exact herror s' ((transaction_error hheld).trans hs)
          · intro _
            exact ensures_pure fun _ _ => trivial
        · have hheld := h.holdings haccounts summary _ hupserted
          apply Ensures.bind (M := fun _ s => s.ledger = s₁.ledger)
          · intro s hs
            cases hheldRun : upsertHoldings result.holdings s with
            | error e s' => exact herror s' ((transaction_error hheldRun).trans hs)
            | ok u s' =>
                have halone := (statementwise_upsertHoldings result.holdings).alone s u s' hheldRun
                rw [hs] at halone
                have hkept := hheld _ halone
                have hstays := upsertHoldings_kept halone (hkept.trans hsame.holdings.symm)
                exact hstays
          · intro _
            refine Ensures.bind ((ensures_payments h hupserted hsame).weaken (fun _ hs => hs)
              (fun _ _ hs => hs) herror) ?_
            exact fun _ => ensures_pure fun _ _ => trivial
      · -- no step is left that can fail
        rw [not_or, not_not, not_not] at hlater
        rw [hlater.1, hlater.2]
        intro s _
        trivial
    exact hrun s₁ rfl

end

/-! ## Steps that fail after a write -/

/-- The part of `applySuccess` that writes the result itself. -/
def ingestScraped (host : Host) (config : Config) (result : SourceFetchResult) :
    LedgerM UpsertSummary := do
  result.accounts.foldlM (fun _ account => upsertAccount account) ()
  let summary ← upsertTransactions host result.transactions (some config.timezone)
  upsertHoldings result.holdings
  return summary

section
variable {host : Host} {config : Config} {companyConfig : CompanyConfig}
  {result : SourceFetchResult} {today : IsoDate} {emittedAt : String → Instant} {ledger : Ledger}

/-- The ingestion of a result, step by step. -/
theorem applySuccess_eq (config : Config) (companyConfig : CompanyConfig)
    (result : SourceFetchResult) (today : IsoDate) (emittedAt : String → Instant) :
    applySuccess host config companyConfig result today emittedAt = (do
      let summary ← ingestScraped host config result
      result.accounts.foldlM
        (fun _ account => ingestPayments host companyConfig today emittedAt account) ()
      return { accountsSeen := result.accounts.length
               transactionsSeen := result.transactions.length
               transactionsNew := summary.inserted
               anomalies := summary.anomalies.length }) := by
  unfold applySuccess ingestScraped
  simp only [bind_assoc, pure_bind]

/-- Any account may be refused, -/
theorem refusable_accounts {β : Type} (accounts : List LedgerAccount) {next : LedgerM β}
    (h : Refusable next) :
    Refusable (accounts.foldlM (fun _ account => upsertAccount account) () >>= fun _ => next) := by
  cases accounts with
  | nil =>
      change Refusable (pure () >>= fun _ => next)
      rw [pure_bind]
      exact h
  | cons account accounts =>
      rw [List.foldlM_cons, bind_assoc]
      exact (refusable_statement _).bind _

/-- and so may any payment. -/
theorem refusable_payments {accounts : List LedgerAccount} (h : accounts ≠ []) :
    Refusable (accounts.foldlM
      (fun _ account => ingestPayments host companyConfig today emittedAt account) ()) := by
  cases accounts with
  | nil => exact absurd rfl h
  | cons account accounts =>
      rw [List.foldlM_cons]
      exact Refusable.bind ((refusable_query _).bind _) _

/-- After the transactions some step is left that can fail. -/
theorem refusable_holdings {β : Type} {accounts : List LedgerAccount} {rows : List LedgerHolding}
    (h : accounts ≠ [] ∨ rows ≠ []) (next : LedgerM β) :
    Refusable (do
      upsertHoldings rows
      accounts.foldlM (fun _ account => ingestPayments host companyConfig today emittedAt account) ()
      next) := by
  cases rows with
  | nil =>
      have haccounts : accounts ≠ [] := h.resolve_right fun hrows => hrows rfl
      intro ledger faults
      exact (refusable_payments haccounts).bind _ ledger faults
  | cons row rows =>
      unfold upsertHoldings
      rw [List.foldlM_cons]
      exact ((refusable_statement _).bind _).transaction.bind _

/-- The accounts go statement by statement, -/
theorem statementwise_accounts (accounts : List LedgerAccount) :
    Statementwise (accounts.foldlM (fun _ account => upsertAccount account) ()) :=
  statementwise_foldlM (fun _ _ => statementwise_statement _) accounts ()

/-- and so do the scraped rows -/
theorem statementwise_ingestScraped : Statementwise (ingestScraped host config result) :=
  (statementwise_accounts _).bind fun _ => (statementwise_upsertTransactions host _ _).bind
    fun _ => (statementwise_upsertHoldings _).bind fun _ => statementwise_pure _

/-- and the payments. -/
theorem statementwise_ingestPayments (account : LedgerAccount) :
    Statementwise (ingestPayments host companyConfig today emittedAt account) := by
  unfold ingestPayments
  apply Statementwise.bind (statementwise_query _)
  intro stored
  apply Statementwise.bind (statementwise_computeSyntheticPayments host _ _ _ _)
  intro rows
  split_ifs
  · exact (statementwise_upsertTransactions host _ _).bind fun _ => statementwise_pure _
  · exact statementwise_pure _

/-- An atomic ingestion has its accounts stored as they are reported: the
statement after each of them can be refused. -/
theorem IngestsAtomically.accounts
    (h : IngestsAtomically host config companyConfig result today emittedAt ledger) :
    ∀ account ∈ result.accounts, StoredAsReported ledger account := by
  have hgo : ∀ done rest, result.accounts = done ++ rest →
      ∀ account ∈ done, StoredAsReported ledger account := by
    intro done
    induction done using List.reverseRecOn with
    | nil => exact fun _ _ account h => absurd h List.not_mem_nil
    | append_singleton done account ih =>
        intro rest hsplit
        have hbefore := ih (account :: rest) (by rw [hsplit, List.append_assoc]; rfl)
        have hrun : (done ++ [account]).foldlM (fun _ account => upsertAccount account) ()
            (⟨ledger, []⟩ : Session) = .ok () ⟨ledger.withAccount account, []⟩ := by
          rw [List.foldlM_append, bind_of_ok (run_accounts hbefore)]
          rfl
        obtain ⟨faults, hreached⟩ := (statementwise_accounts _).then_refused hrun
        have hnext := refusable_accounts rest ((refusable_upsertTransactions host result.transactions
          (some config.timezone)).bind fun summary => do
            upsertHoldings result.holdings
            result.accounts.foldlM
              (fun _ account => ingestPayments host companyConfig today emittedAt account) ()
            return ({ accountsSeen := result.accounts.length
                      transactionsSeen := result.transactions.length
                      transactionsNew := summary.inserted
                      anomalies := summary.anomalies.length } : Counts))
        obtain ⟨e, s, hstopped, hledger⟩ := hnext (ledger.withAccount account) []
        have happlied : applySuccess host config companyConfig result today emittedAt
            ⟨ledger, faults⟩ = .error e s := by
          unfold applySuccess
          rw [← hstopped]
          conv => lhs; rw [hsplit]
          rw [List.foldlM_append, bind_assoc, bind_of_ok hreached, hsplit]
        have hsame := (h faults e s happlied).accounts
        rw [hledger] at hsame
        intro other hother
        rcases List.mem_append.mp hother with hearlier | hlast
        · exact hbefore other hearlier
        · rw [List.mem_singleton.mp hlast]
          exact storedAsReported_of_withAccount hsame
  exact hgo result.accounts [] (List.append_nil _).symm

/-- After an atomic ingestion's transactions none is changed, when a step is
left that can fail. -/
theorem IngestsAtomically.transactions
    (h : IngestsAtomically host config companyConfig result today emittedAt ledger)
    (hlater : result.accounts ≠ [] ∨ result.holdings ≠ []) {summary : UpsertSummary} {s : Session}
    (hupserted : transactionsOutcome host config result ledger = .ok summary s) :
    s.ledger.transactions = ledger.transactions := by
  have hrun : (result.accounts.foldlM (fun _ account => upsertAccount account) () >>= fun _ =>
      upsertTransactions host result.transactions (some config.timezone)) ⟨ledger, []⟩ =
      .ok summary s := by
    rw [bind_of_ok (run_accounts h.accounts)]
    exact hupserted
  obtain ⟨faults, hreached⟩ := ((statementwise_accounts _).bind fun _ =>
    statementwise_upsertTransactions host _ _).then_refused hrun
  obtain ⟨e, s', hstopped, hledger⟩ := @refusable_holdings host companyConfig today emittedAt Counts _ _
    hlater (pure { accountsSeen := result.accounts.length
                   transactionsSeen := result.transactions.length
                   transactionsNew := summary.inserted
                   anomalies := summary.anomalies.length }) s.ledger []
  have happlied : applySuccess host config companyConfig result today emittedAt ⟨ledger, faults⟩ =
      .error e s' := by
    unfold applySuccess
    rw [← bind_assoc, bind_of_ok hreached]
    exact hstopped
  rw [← hledger]
  exact (h faults e s' happlied).transactions

/-- The scraped part of an atomic ingestion, in which nothing is written. -/
theorem IngestsAtomically.scraped
    (h : IngestsAtomically host config companyConfig result today emittedAt ledger)
    {summary : UpsertSummary} {s s' : Session}
    (hupserted : transactionsOutcome host config result ledger = .ok summary s)
    (hheld : upsertHoldings result.holdings s = .ok () s') :
    ingestScraped host config result ⟨ledger, []⟩ = .ok summary s' := by
  unfold ingestScraped
  rw [bind_of_ok (run_accounts h.accounts), bind_of_ok hupserted, bind_of_ok hheld]
  rfl

/-- Nor are its holdings. -/
theorem IngestsAtomically.holdings
    (h : IngestsAtomically host config companyConfig result today emittedAt ledger)
    (hlater : result.accounts ≠ []) {summary : UpsertSummary} {s s' : Session}
    (hupserted : transactionsOutcome host config result ledger = .ok summary s)
    (hheld : upsertHoldings result.holdings s = .ok () s') :
    s'.ledger.holdings = ledger.holdings := by
  obtain ⟨faults, hreached⟩ := statementwise_ingestScraped.then_refused
    (h.scraped hupserted hheld)
  obtain ⟨e, s'', hstopped, hledger⟩ := @refusable_payments host companyConfig today emittedAt _
    hlater s'.ledger []
  have happlied : applySuccess host config companyConfig result today emittedAt ⟨ledger, faults⟩ =
      .error e s'' := by
    rw [applySuccess_eq, bind_of_ok hreached, bind_of_error hstopped]
  rw [← hledger]
  exact (h faults e s'' happlied).holdings

/-! ### A recorded payment -/

/-- Groups that are not due leave no trace. -/
theorem run_emitPayment_skips {account : LedgerAccount} {now : Instant} {cutoff : IsoDate}
    {emitted : List IsoDate} {partialUntil : Option IsoDate} {groups : List ChargeGroup}
    (h : ∀ group ∈ groups, ¬isDue host cutoff emitted partialUntil group = true)
    (created : List LedgerTransaction) (s : Session) :
    groups.foldlM (emitPayment host account companyConfig now cutoff emitted partialUntil) created s =
      .ok created s := by
  induction groups with
  | nil => rfl
  | cons group groups ih =>
      have hskip : emitPayment host account companyConfig now cutoff emitted partialUntil created group s =
          .ok created s := by
        unfold emitPayment
        rw [if_neg (h group List.mem_cons_self)]
        rfl
      rw [List.foldlM_cons, bind_of_ok hskip]
      exact ih fun other hother => h other (List.mem_cons_of_mem _ hother)

/-- Once a payment is recorded and the next statement is refused, nothing more
is written, and the rows are not there yet. -/
theorem ensures_emitPayment_refused {account : LedgerAccount} {now : Instant} {cutoff : IsoDate}
    {emitted : List IsoDate} {partialUntil : Option IsoDate} (groups : List ChargeGroup)
    {created : List LedgerTransaction} (hcreated : created ≠ []) :
    Ensures (fun s => s = ⟨ledger, [true]⟩)
      (groups.foldlM (emitPayment host account companyConfig now cutoff emitted partialUntil) created)
      (fun created' s => created' ≠ [] ∧ s = ⟨ledger, [true]⟩) (fun s => s.ledger = ledger) := by
  induction groups generalizing created with
  | nil => exact ensures_pure fun s hs => ⟨hcreated, hs⟩
  | cons group groups ih =>
      rw [List.foldlM_cons]
      apply Ensures.bind (M := fun created' s => created' ≠ [] ∧ s = ⟨ledger, [true]⟩)
      · unfold emitPayment
        by_cases hdue : isDue host cutoff emitted partialUntil group = true
        · rw [if_pos hdue]
          rintro s rfl
          cases hid : syntheticPaymentId account.company account.accountNumber group.chargeDate with
          | error e => exact rfl
          | ok id => exact rfl
        · rw [if_neg hdue]
          exact ensures_pure fun s hs => ⟨hcreated, hs⟩
      · intro created'
        apply ensures_of_imp
        exact fun hcreated' => ih hcreated'

/-- **A payment that is recorded can stay alone**: the statement after its
record is refused. -/
theorem ingestPayments_stops {account : LedgerAccount} {group : ChargeGroup}
    {groups : List ChargeGroup} {id : String}
    (hgroups : dueGroups host (ledger.current account) companyConfig today ledger =
      .ok (group :: groups))
    (hid : syntheticPaymentId (ledger.current account).company (ledger.current account).accountNumber
      group.chargeDate = .ok id)
    (hfree : ledger.syntheticPayments.find id = none) :
    ∃ faults e s, ingestPayments host companyConfig today emittedAt account ⟨ledger, faults⟩ =
      .error e s ∧ s.ledger.syntheticPayments ≠ ledger.syntheticPayments := by
  obtain ⟨cutoff, emitted, partialUntil, count, ordered, hdue, hqueried⟩ :=
    @computeSyntheticPayments_queried host _ _ _ (emittedAt account.id) _ _ hgroups
  obtain ⟨skipped, later, hordered, hskipped, hfirst, -⟩ := List.filter_eq_cons_iff.mp hdue
  generalize hpayment : SyntheticPayment.mk id (ledger.current account).id group.chargeDate
    (host.roundMoney (-group.total)) (emittedAt account.id) = payment
  generalize hrecorded : ({ ledger with
    syntheticPayments := ledger.syntheticPayments.put payment } : Ledger) = recorded
  have hemitted : ∃ row, emitPayment host (ledger.current account) companyConfig (emittedAt account.id)
      cutoff emitted partialUntil [] group ⟨ledger, [false, true]⟩ = .ok [row] ⟨recorded, [true]⟩ := by
    refine ⟨paymentRow (ledger.current account) companyConfig (emittedAt account.id) group id
      (host.roundMoney (-group.total)), ?_⟩
    have hlift : liftExcept (syntheticPaymentId (ledger.current account).company
        (ledger.current account).accountNumber group.chargeDate) ⟨ledger, [false, true]⟩ =
        .ok id ⟨ledger, [false, true]⟩ := by
      rw [hid]
      rfl
    have hinsert : insertSyntheticPayment payment ⟨ledger, [false, true]⟩ =
        .ok () ⟨recorded, [true]⟩ := by
      have htransactionId : payment.transactionId = id := by rw [← hpayment]
      unfold insertSyntheticPayment statement
      dsimp only
      rw [htransactionId, hfree, if_neg (by decide), if_neg (by decide), hrecorded]
      rfl
    unfold emitPayment
    rw [if_pos hfirst, bind_of_ok hlift, hpayment, bind_of_ok hinsert]
    rfl
  obtain ⟨row, hrow⟩ := hemitted
  have hrun : computeSyntheticPayments host (ledger.current account) companyConfig today
      (emittedAt account.id) ⟨ledger, List.replicate count false ++ [false, true]⟩ =
      later.foldlM (emitPayment host (ledger.current account) companyConfig (emittedAt account.id)
        cutoff emitted partialUntil) [row] ⟨recorded, [true]⟩ := by
    rw [hqueried, hordered, List.foldlM_append,
      bind_of_ok (run_emitPayment_skips hskipped [] ⟨ledger, [false, true]⟩), List.foldlM_cons,
      bind_of_ok hrow]
  have hchanged : recorded.syntheticPayments ≠ ledger.syntheticPayments := by
    intro hsame
    have hfound := KeyedTable.find_put_self ledger.syntheticPayments payment
    have hput : ledger.syntheticPayments.put payment = recorded.syntheticPayments := by
      rw [← hrecorded]
    have htransactionId : payment.transactionId = id := by rw [← hpayment]
    rw [hput, hsame, htransactionId, hfree] at hfound
    cases hfound
  have hquery : query (fun l => l.accounts.find account.id)
      ⟨ledger, false :: (List.replicate count false ++ [false, true])⟩ =
      .ok (ledger.accounts.find account.id) ⟨ledger, List.replicate count false ++ [false, true]⟩ :=
    rfl
  have hrest := @ensures_emitPayment_refused host companyConfig recorded (ledger.current account)
    (emittedAt account.id) cutoff emitted partialUntil later [row] (List.cons_ne_nil _ _) _ rfl
  refine ⟨false :: (List.replicate count false ++ [false, true]), ?_⟩
  unfold ingestPayments
  rw [bind_of_ok hquery]
  cases hloop : later.foldlM (emitPayment host (ledger.current account) companyConfig
      (emittedAt account.id) cutoff emitted partialUntil) [row] ⟨recorded, [true]⟩ with
  | error e s =>
      rw [hloop] at hrest hrun
      refine ⟨e, s, bind_of_error hrun, ?_⟩
      rw [hrest]
      exact hchanged
  | ok created s =>
      rw [hloop] at hrest hrun
      obtain ⟨hcreated, rfl⟩ := hrest
      obtain ⟨e, s, hstopped, hledger⟩ := refusable_upsertTransactions host created none recorded []
      refine ⟨e, s, ?_, by rw [hledger]; exact hchanged⟩
      unfold Ledger.current at hrun
      rw [bind_of_ok hrun, if_pos (List.length_pos_iff.mpr hcreated), bind_of_error hstopped]

/-- Accounts without a payment due are passed over. -/
theorem run_payments {accounts : List LedgerAccount}
    (h : ∀ account ∈ accounts,
      dueGroups host (ledger.current account) companyConfig today ledger = .ok []) :
    accounts.foldlM (fun _ account => ingestPayments host companyConfig today emittedAt account) ()
      (⟨ledger, []⟩ : Session) = .ok () ⟨ledger, []⟩ := by
  induction accounts with
  | nil => rfl
  | cons account accounts ih =>
      obtain ⟨cutoff, emitted, partialUntil, count, ordered, hdue, hqueried⟩ :=
        @computeSyntheticPayments_queried host _ _ _ (emittedAt account.id) _ _
          (h account List.mem_cons_self)
      have hnone := hqueried []
      rw [run_emitPayment_skips (List.filter_eq_nil_iff.mp hdue)] at hnone
      have halone := (statementwise_computeSyntheticPayments host _ _ _ _).alone _ _ _ hnone
      have hquery : query (fun l => l.accounts.find account.id) ⟨ledger, []⟩ =
          .ok (ledger.accounts.find account.id) ⟨ledger, []⟩ := rfl
      have hstep : ingestPayments host companyConfig today emittedAt account ⟨ledger, []⟩ =
          .ok () ⟨ledger, []⟩ := by
        unfold ingestPayments
        rw [bind_of_ok hquery]
        unfold Ledger.current at halone
        rw [bind_of_ok halone]
        rfl
      rw [List.foldlM_cons, bind_of_ok hstep]
      exact ih fun other hother => h other (List.mem_cons_of_mem _ hother)

/-- An atomic ingestion records no payment. -/
theorem IngestsAtomically.payments
    (h : IngestsAtomically host config companyConfig result today emittedAt ledger)
    {summary : UpsertSummary} {s : Session}
    (hupserted : transactionsOutcome host config result ledger = .ok summary s)
    {done rest : List LedgerAccount} {account : LedgerAccount}
    (hsplit : result.accounts = done ++ account :: rest)
    (hdone : ∀ other ∈ done,
      dueGroups host (ledger.current other) companyConfig today ledger = .ok []) :
    RecordsNothing host companyConfig today ledger (ledger.current account) := by
  have hlater : result.accounts ≠ [] := by
    rw [hsplit]
    exact List.append_ne_nil_of_right_ne_nil _ (List.cons_ne_nil _ _)
  have hsame := SameTables.of_upserted hupserted (h.transactions (.inl hlater) hupserted)
  have hfaults : s = ⟨s.ledger, []⟩ := by
    have halone := (statementwise_upsertTransactions host _ _).alone _ _ _ hupserted
    unfold transactionsOutcome at hupserted
    rw [hupserted] at halone
    exact (EStateM.Result.ok.inj halone).2
  obtain ⟨s', hheld⟩ := run_upsertHoldings result.holdings s.ledger
  rw [← hfaults] at hheld
  have hkept := h.holdings hlater hupserted hheld
  have hstays : s'.ledger = s.ledger := by
    rw [hfaults] at hheld
    exact upsertHoldings_kept hheld (hkept.trans hsame.holdings.symm)
  have hcurrent : ∀ other, s.ledger.current other = ledger.current other := by
    intro other
    unfold Ledger.current
    rw [hsame.accounts]
  have hgroups : ∀ other, dueGroups host (s.ledger.current other) companyConfig today s.ledger =
      dueGroups host (ledger.current other) companyConfig today ledger := by
    intro other
    rw [hcurrent]
    exact dueGroups_congr host _ _ _ hsame.transactions hsame.syntheticPayments
  intro group groups id hdue hid
  by_contra hfree
  have hfree' : s.ledger.syntheticPayments.find id = none := by
    rw [hsame.syntheticPayments]
    simpa using hfree
  obtain ⟨faults, e, stopped, hstopped, hchanged⟩ := @ingestPayments_stops host companyConfig today
    emittedAt s.ledger account group groups id ((hgroups account).trans hdue)
    (by rw [hcurrent]; exact hid) hfree'
  have hbefore : (ingestScraped host config result >>= fun summary => do
      done.foldlM (fun _ account => ingestPayments host companyConfig today emittedAt account) ()
      return summary) ⟨ledger, []⟩ = .ok summary ⟨s.ledger, []⟩ := by
    have hs' : s' = ⟨s.ledger, []⟩ := by
      have halone := (statementwise_upsertHoldings result.holdings).alone _ _ _ hheld
      rw [← hfaults, hheld] at halone
      rw [(EStateM.Result.ok.inj halone).2, hstays]
    rw [bind_of_ok (h.scraped hupserted hheld), hs', bind_of_ok (run_payments fun other hother =>
      (hgroups other).trans (hdone other hother))]
    rfl
  obtain ⟨count, hcount⟩ := (statementwise_ingestScraped.bind fun summary =>
    (statementwise_foldlM (fun _ account => statementwise_ingestPayments account) done ()).bind
      fun _ => statementwise_pure summary).passes _ _ _ hbefore
  have happlied : applySuccess host config companyConfig result today emittedAt
      ⟨ledger, List.replicate count false ++ faults⟩ = .error e stopped := by
    obtain ⟨summary', mid, hscraped, hpaid⟩ := bind_ok.mp (hcount faults)
    obtain ⟨u, mid', hloop, hreturn⟩ := bind_ok.mp hpaid
    obtain ⟨-, rfl⟩ := pure_ok.mp hreturn
    rw [applySuccess_eq, bind_of_ok hscraped, hsplit, List.foldlM_append, bind_assoc,
      bind_of_ok hloop, List.foldlM_cons, bind_assoc, bind_of_error hstopped]
  exact hchanged ((h _ e stopped happlied).syntheticPayments.trans hsame.syntheticPayments.symm)

end

/-! ## Atomic ingestions -/

/-- **An ingestion is atomic** exactly when nothing is written before its last
step. -/
theorem applySuccess_atomic_iff (host : Host) (config : Config) (companyConfig : CompanyConfig)
    (result : SourceFetchResult) (today : IsoDate) (emittedAt : String → Instant)
    (ledger : Ledger) :
    IngestsAtomically host config companyConfig result today emittedAt ledger ↔
      WritesLast host config companyConfig result today ledger := by
  constructor
  · intro h
    exact ⟨h.accounts, fun hlater _ _ hupserted => h.transactions hlater hupserted,
      fun hlater _ _ hupserted _ hheld => h.holdings hlater hupserted hheld,
      fun _ _ hupserted _ _ _ hsplit hdone => h.payments hupserted hsplit hdone⟩
  · intro h faults e s hstopped
    have hsame := @ensures_applySuccess host config companyConfig result today emittedAt ledger h
      ⟨ledger, faults⟩ rfl
    have hframe : Frames (fun l : Ledger => l.sourceStates)
        (applySuccess host config companyConfig result today emittedAt) :=
      frames_applySuccess host config (fun _ _ _ _ _ _ => rfl) companyConfig result today emittedAt
    have hstates := hframe ⟨ledger, faults⟩
    rw [hstopped] at hsame hstates
    exact hsame.untouched hstates host config

/-- A credit card. -/
def calCompany : CompanyConfig := ⟨true, "Cal", .credit_card, none, none, true, .purchase, false⟩

/-- A configuration with that card. -/
def calConfig : Config where
  timezone := "Asia/Jerusalem"
  currency := "ILS"
  staleHours := 30
  overlapDays := 2
  maxLoginAttemptsPerDay := 3
  companies := [("visaCal", calCompany)]
  companies_nodup := by decide
  publicUrl := "https://bridge.example"

/-- An account of the card. -/
def calAccount : LedgerAccount where
  id := "visaCal:1234"
  company := "visaCal"
  accountNumber := "1234"
  kind := .credit_card
  currency := "ILS"
  name := "Cal 1234"
  balance := some (-250)
  balanceAt := some 0
  firstSeen := 0
  lastSeen := 0
  raw := .obj []

/-- A purchase the portal reports as pending. -/
def pendingCoffee : LedgerTransaction :=
  { archivedFridge with
    id := "visaCal:1234:p:coffee"
    identifier := none
    amount := -12
    description := "Coffee"
    status := .pending
    installmentNumber := none
    installmentTotal := none
    raw := .obj [] }

/-- The archived instalment twice, and a pending purchase of the last scrape. -/
def pendingLedger : Ledger :=
  { twiceArchived with
    accounts := KeyedTable.empty.put calAccount
    transactions := twiceArchived.transactions.put pendingCoffee }

/-- The next scrape reports the purchase again, and the portal's instalment. -/
def nextScrape : SourceFetchResult where
  accounts := [{ calAccount with lastSeen := 1000 }]
  transactions := [{ pendingCoffee with lastSeen := 1000 }, portalFridge]
  holdings := []
  scrapedAt := 1000

/-- A query for everything. -/
def sinceTheEpoch : AccountsQuery :=
  { startDate := some ⟨0, by decide⟩, pending := true, balancesOnly := false }

/-- The pending rows a ledger serves. -/
def servedPending (ledger : Ledger) : List String :=
  ((buildAccountsResponse asciiHost calConfig sinceTheEpoch 0 ledger).accounts.flatMap
    (·.transactions)).filterMap fun row => if row.pending then some row.id else none

/-- The ingestion of the next scrape. -/
def nextIngestion : EStateM.Result BridgeError Session Counts :=
  applySuccess asciiHost calConfig calCompany nextScrape "2026-01-06" (fun _ => 0)
    ⟨pendingLedger, []⟩

/-- It is refused for an ambiguous installment. -/
theorem nextIngestion_throws :
    nextIngestion = .error .ambiguousInstallment (storeAfter nextIngestion) := by
  have hthrown : (match nextIngestion with
      | .ok _ _ => none
      | .error e _ => some e) = some .ambiguousInstallment := by decide +kernel
  cases hrun : nextIngestion with
  | ok counts s =>
      rw [hrun] at hthrown
      cases hthrown
  | error e s =>
      rw [hrun] at hthrown
      cases hthrown
      rfl

/-- An ambiguous instalment fails the ingestion after the account is written.
The transactions are as before, but the account is newer, and the pending
purchase, which the scrape still reports, is no longer served. -/
theorem failed_ingestion_hides_pending :
    ∃ s, applySuccess asciiHost calConfig calCompany nextScrape "2026-01-06" (fun _ => 0)
        ⟨pendingLedger, []⟩ = .error .ambiguousInstallment s ∧
      s.ledger.transactions.rows = pendingLedger.transactions.rows ∧
      s.ledger.accounts ≠ pendingLedger.accounts ∧
      servedPending pendingLedger = ["visaCal:1234:p:coffee"] ∧
      servedPending s.ledger = [] ∧
      buildAccountsResponse asciiHost calConfig sinceTheEpoch 0 s.ledger ≠
        buildAccountsResponse asciiHost calConfig sinceTheEpoch 0 pendingLedger ∧
      ¬IngestsAtomically asciiHost calConfig calCompany nextScrape "2026-01-06" (fun _ => 0)
        pendingLedger := by
  have hpending : servedPending pendingLedger = ["visaCal:1234:p:coffee"] := by decide +kernel
  have hhidden : servedPending (storeAfter nextIngestion).ledger = [] := by decide +kernel
  have hresponses : buildAccountsResponse asciiHost calConfig sinceTheEpoch 0
      (storeAfter nextIngestion).ledger ≠
        buildAccountsResponse asciiHost calConfig sinceTheEpoch 0 pendingLedger := by
    intro hsame
    unfold servedPending at hhidden hpending
    rw [hsame, hpending] at hhidden
    cases hhidden
  refine ⟨storeAfter nextIngestion, nextIngestion_throws, by decide +kernel, ?_, hpending, hhidden,
    hresponses, ?_⟩
  · intro hsame
    have hnewer : (storeAfter nextIngestion).ledger.accounts.rows ≠ pendingLedger.accounts.rows := by
      decide +kernel
    exact hnewer (congrArg (·.rows) hsame)
  · intro hatomic
    exact hresponses ((hatomic [] _ _ nextIngestion_throws).responses sinceTheEpoch 0)

end SimplefinBridge
