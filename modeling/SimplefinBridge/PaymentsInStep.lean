import SimplefinBridge.AtomicIngestion
import SimplefinBridge.FreezeSemantics
import SimplefinBridge.IdStability

/-!
# Synthetic payments and their rows

`computeSyntheticPayments` records a payment in `synthetic_payments` and
returns the row for `upsertTransactions`; the record keeps later runs from
computing that charge date again.  `PaymentsInStep` says that records and
synthetic rows belong together one by one.  Every ingestion keeps it unless it
stops after the first record of an account and before the upsert of that
account's rows has committed (`stopsUnpaired`): then the record stays alone,
and no later run makes up for it.
-/

namespace SimplefinBridge

/-! ## Runs of ingestions -/

/-- One call of `applySuccess`, with the statements that fail in it. -/
structure IngestRun where
  companyConfig : CompanyConfig
  result : SourceFetchResult
  today : IsoDate
  emittedAt : String → Instant
  faults : List Bool

section
variable (host : Host) (config : Config)

/-- An ingestion, with the ledger it leaves. -/
def ingestOutcome (ledger : Ledger) (run : IngestRun) : EStateM.Result BridgeError Session Counts :=
  applySuccess host config run.companyConfig run.result run.today run.emittedAt ⟨ledger, run.faults⟩

/-- The ledger a call leaves behind, returned from or stopped. -/
def ingest (ledger : Ledger) (run : IngestRun) : Ledger :=
  (Transactional.storeAfter (ingestOutcome host config ledger run)).ledger

/-- The payments of some account stop after a record of theirs is inserted. -/
def paymentsStopUnpaired (run : IngestRun) : List LedgerAccount → Session → Bool
  | [], _ => false
  | account :: accounts, s =>
      match ingestPayments host run.companyConfig run.today run.emittedAt account s with
      | .ok _ s' => paymentsStopUnpaired run accounts s'
      | .error _ s' => s'.ledger.syntheticPayments.rows ≠ s.ledger.syntheticPayments.rows

/-- The call stops between the first record of an account and the commit of
that account's rows. -/
def stopsUnpaired (ledger : Ledger) (run : IngestRun) : Bool :=
  match ingestScraped host config run.result ⟨ledger, run.faults⟩ with
  | .ok _ s => paymentsStopUnpaired host run run.result.accounts s
  | .error _ _ => false

end

/-! ## Records and rows -/

/-- A calendar date as the normaliser writes it: digits and dashes. -/
def isDateText (date : IsoDate) : Bool :=
  date.toList.all (fun c => c.isDigit || c = '-') && '-' ∈ date.toList

/-- An id that `syntheticPaymentId` makes for a calendar date. -/
def IsPaymentId (id : String) : Prop :=
  ∃ company accountNumber chargeDate, isDateText chargeDate = true ∧
    syntheticPaymentId company accountNumber chargeDate = .ok id

/-- What the normaliser promises of the rows of a result. -/
def FromScraper (result : SourceFetchResult) : Prop :=
  ∀ row ∈ result.transactions, row.synthetic = false ∧ ¬ IsPaymentId row.id ∧
    ∀ date, row.chargeDate = some date → isDateText date = true

/-- The transaction of a record. -/
def SyntheticPayment.IsOf (payment : SyntheticPayment) (row : LedgerTransaction) : Prop :=
  row.id = payment.transactionId ∧ row.synthetic = true ∧ row.accountId = payment.accountId ∧
    row.chargeDate = some payment.chargeDate ∧ row.amount = payment.amount

/-- Every record has its synthetic transaction and every synthetic transaction
its record, and there is one for an account and charge date. -/
structure PaymentsInStep (ledger : Ledger) : Prop where
  backed : ∀ payment ∈ ledger.syntheticPayments.rows,
    ∃ row ∈ ledger.transactions.rows, payment.IsOf row
  recorded : ∀ row ∈ ledger.transactions.rows, row.synthetic = true →
    ∃ payment ∈ ledger.syntheticPayments.rows, payment.IsOf row
  single : ∀ payment ∈ ledger.syntheticPayments.rows, ∀ other ∈ ledger.syntheticPayments.rows,
    payment.accountId = other.accountId → payment.chargeDate = other.chargeDate → payment = other

/-- Neither records nor synthetic rows change. -/
structure PaymentsKept (before after : Ledger) : Prop where
  records : ∀ payment ∈ before.syntheticPayments.rows, payment ∈ after.syntheticPayments.rows
  rows : ∀ row ∈ before.transactions.rows, row.synthetic = true → row ∈ after.transactions.rows

/-- Nothing was recorded. -/
theorem PaymentsKept.refl (ledger : Ledger) : PaymentsKept ledger ledger :=
  ⟨fun _ h => h, fun _ h _ => h⟩

/-- What is recorded stays recorded. -/
theorem PaymentsKept.trans {a b c : Ledger} (hab : PaymentsKept a b) (hbc : PaymentsKept b c) :
    PaymentsKept a c :=
  ⟨fun p hp => hbc.records p (hab.records p hp),
    fun row hrow hsynthetic => hbc.rows row (hab.rows row hrow hsynthetic) hsynthetic⟩

/-- The invariant of the tables: payments are in step, and the other rows came
from the scraper. -/
structure PaymentsSound (ledger : Ledger) : Prop extends PaymentsInStep ledger where
  paymentIds : ∀ payment ∈ ledger.syntheticPayments.rows, IsPaymentId payment.transactionId
  scraped : ∀ row ∈ ledger.transactions.rows, row.synthetic = false → ¬ IsPaymentId row.id ∧
    ∀ date, row.chargeDate = some date → isDateText date = true

section
variable {host : Host}

/-! ## Writing the result -/

/-- A synthetic row has an id of a payment. -/
theorem PaymentsSound.paymentId {ledger : Ledger} (h : PaymentsSound ledger)
    {row : LedgerTransaction} (hrow : row ∈ ledger.transactions.rows)
    (hsynthetic : row.synthetic = true) : IsPaymentId row.id := by
  obtain ⟨payment, hpayment, hid, -⟩ := h.recorded row hrow hsynthetic
  rw [hid]
  exact h.paymentIds payment hpayment

/-- Only scraped rows stand for incoming ones. -/
theorem batchAliases_unsynthetic {rows : List LedgerTransaction} {timezone : Option String}
    {ledger : Ledger} {aliases : List (String × LedgerTransaction)} (hsound : PaymentsSound ledger)
    (hrows : ∀ row ∈ rows, ¬ IsPaymentId row.id)
    (h : batchAliases host rows timezone ledger = .ok aliases) {id : String}
    {canonical : LedgerTransaction} (hlookup : aliases.lookup id = some canonical) :
    canonical.synthetic = false := by
  have hstored := batchAliases_stored h hlookup
  unfold batchAliases at h
  split at h
  · obtain rfl := Except.ok.inj h
    cases hlookup
  · obtain ⟨l₁, l₂, hsplit, -⟩ := List.lookup_eq_some_iff.mp hlookup
    have hentry : (id, canonical) ∈ aliases := by
      rw [hsplit]
      exact List.mem_append_right _ List.mem_cons_self
    obtain ⟨row, hrow, -, hcanonical⟩ := (resolveArchiveInstallments_ok h).1 _ hentry
    rcases (canonicalRow_ok_some hcanonical).2 with hown | ⟨-, hmatches, -⟩
    · by_contra hsynthetic
      rw [Bool.not_eq_false] at hsynthetic
      apply hrows row hrow
      rw [← hown]
      exact hsound.paymentId hstored hsynthetic
    · unfold matchesArchiveInstallment at hmatches
      have hsame := (Bool.and_eq_true_iff.mp hmatches).1
      simp only [sameInstallment, Bool.and_eq_true, Bool.not_eq_true'] at hsame
      exact hsame.1.1.1.1.1.1.1.1.1.1.1.1.1.1.1.1.2

/-- What holds while a result is upserted into `start`. -/
structure ScrapedProgress (start ledger : Ledger) : Prop where
  payments : ledger.syntheticPayments = start.syntheticPayments
  kept : ∀ row ∈ start.transactions.rows, row.synthetic = true → row ∈ ledger.transactions.rows
  plain : ∀ row ∈ start.transactions.rows, row.synthetic = false →
    ∃ row', ledger.transactions.find row.id = some row' ∧ row'.synthetic = false
  origin : ∀ row ∈ ledger.transactions.rows, row.synthetic = true → row ∈ start.transactions.rows
  scraped : ∀ row ∈ ledger.transactions.rows, row.synthetic = false → ¬ IsPaymentId row.id ∧
    ∀ date, row.chargeDate = some date → isDateText date = true

/-- Nothing has been scraped yet. -/
theorem ScrapedProgress.start {ledger : Ledger} (h : PaymentsSound ledger) :
    ScrapedProgress ledger ledger where
  payments := rfl
  kept := fun _ hrow _ => hrow
  plain := fun row hrow hplain => ⟨row, KeyedTable.find_of_mem hrow, hplain⟩
  origin := fun _ hrow _ => hrow
  scraped := h.scraped

/-- Writing a scraped row under an id that no synthetic row has. -/
theorem ScrapedProgress.put {start ledger : Ledger} {new : LedgerTransaction}
    (h : ScrapedProgress start ledger) (hplain : new.synthetic = false)
    (hid : ¬ IsPaymentId new.id)
    (hdate : ∀ date, new.chargeDate = some date → isDateText date = true)
    (hfree : ∀ row ∈ ledger.transactions.rows, row.synthetic = true → row.id ≠ new.id) :
    ScrapedProgress start { ledger with transactions := ledger.transactions.put new } where
  payments := h.payments
  kept := by
    intro row hrow hsynthetic
    have hmem := h.kept row hrow hsynthetic
    exact KeyedTable.mem_put.mpr (Or.inr ⟨hmem, hfree row hmem hsynthetic⟩)
  plain := by
    intro row hrow hrowPlain
    by_cases hsame : row.id = new.id
    · refine ⟨new, ?_, hplain⟩
      rw [hsame]
      exact KeyedTable.find_put_self _ _
    · obtain ⟨row', hfind, hplain'⟩ := h.plain row hrow hrowPlain
      exact ⟨row', by rw [KeyedTable.find_put_other _ hsame, hfind], hplain'⟩
  origin := by
    intro row hrow hsynthetic
    rcases KeyedTable.mem_put.mp hrow with rfl | ⟨hrow, -⟩
    · rw [hplain] at hsynthetic
      cases hsynthetic
    · exact h.origin row hrow hsynthetic
  scraped := by
    intro row hrow hrowPlain
    rcases KeyedTable.mem_put.mp hrow with rfl | ⟨hrow, -⟩
    · exact ⟨hid, hdate⟩
    · exact h.scraped row hrow hrowPlain

/-- **One row** of a result. -/
theorem ScrapedProgress.step {start : Ledger} {aliases : List (String × LedgerTransaction)}
    {state : UpsertSummary × Ledger} {row : LedgerTransaction} (hsound : PaymentsSound start)
    (h : ScrapedProgress start state.2)
    (haliases : ∀ id canonical, aliases.lookup id = some canonical →
      canonical ∈ start.transactions.rows ∧ canonical.synthetic = false)
    (hplain : row.synthetic = false) (hid : ¬ IsPaymentId row.id)
    (hdate : ∀ date, row.chargeDate = some date → isDateText date = true) :
    ScrapedProgress start (upsertStep host aliases state row).2 := by
  obtain ⟨summary, ledger⟩ := state
  dsimp only at h
  have hsynthetic : ∀ r ∈ ledger.transactions.rows, r.synthetic = true → IsPaymentId r.id :=
    fun r hr hs => hsound.paymentId (h.origin r hr hs) hs
  -- a refresh of a stored row that is not synthetic, with dates that are
  have hrefresh : ∀ stored existing : LedgerTransaction, stored ∈ ledger.transactions.rows →
      stored.id = existing.id → stored.synthetic = false →
      (∀ date, existing.chargeDate = some date → isDateText date = true) →
      ScrapedProgress start (ledger.refresh host existing row) := by
    intro stored existing hstored hsame hstoredPlain hexisting
    unfold Ledger.refresh
    rw [← hsame, KeyedTable.find_of_mem hstored]
    dsimp only
    refine h.put ?_ ?_ ?_ ?_
    · exact hstoredPlain
    · exact (h.scraped stored hstored hstoredPlain).1
    · intro date hrefreshed
      change row.chargeDate.or existing.chargeDate = some date at hrefreshed
      rcases Option.or_eq_some_iff.mp hrefreshed with hown | ⟨-, hold⟩
      · exact hdate date hown
      · exact hexisting date hold
    · intro r hr hs hrid
      obtain rfl := KeyedTable.eq_of_key_eq hr hstored hrid
      rw [hstoredPlain] at hs
      cases hs
  unfold upsertStep
  dsimp only
  cases hown : ledger.transactions.find row.id with
  | none =>
      cases halias : aliases.lookup row.id with
      | none =>
          have hstoredPlain : row.stored.synthetic = false := hplain
          have hstoredDate : ∀ date, row.stored.chargeDate = some date →
              isDateText date = true := hdate
          refine h.put hstoredPlain (by rwa [row.stored_id]) hstoredDate ?_
          intro r hr hs hrid
          rw [row.stored_id] at hrid
          exact hid (hrid ▸ hsynthetic r hr hs)
      | some existing =>
          obtain ⟨hmem, hexisting⟩ := haliases _ _ halias
          obtain ⟨stored, hfind, hstoredPlain⟩ := h.plain existing hmem hexisting
          exact hrefresh stored existing (KeyedTable.mem_of_find hfind)
            (KeyedTable.key_of_find hfind) hstoredPlain (hsound.scraped existing hmem hexisting).2
  | some stored =>
      have hstored := KeyedTable.mem_of_find hown
      have hstoredPlain : stored.synthetic = false := by
        by_contra hs
        rw [Bool.not_eq_false] at hs
        exact hid (KeyedTable.key_of_find hown ▸ hsynthetic stored hstored hs)
      exact hrefresh stored stored hstored rfl hstoredPlain
        (h.scraped stored hstored hstoredPlain).2

/-- Scraped rows keep the payments sound. -/
theorem ScrapedProgress.sound {start ledger : Ledger} (hsound : PaymentsSound start)
    (h : ScrapedProgress start ledger) : PaymentsSound ledger ∧ PaymentsKept start ledger := by
  refine ⟨⟨⟨?_, ?_, ?_⟩, ?_, h.scraped⟩, ?_, h.kept⟩
  · intro payment hpayment
    rw [h.payments] at hpayment
    obtain ⟨row, hrow, hof⟩ := hsound.backed payment hpayment
    exact ⟨row, h.kept row hrow hof.2.1, hof⟩
  · intro row hrow hsynthetic
    rw [h.payments]
    exact hsound.recorded row (h.origin row hrow hsynthetic) hsynthetic
  · rw [h.payments]
    exact hsound.single
  · rw [h.payments]
    exact hsound.paymentIds
  · rw [h.payments]
    exact fun _ hpayment => hpayment

/-- **The upsert of a result** keeps the payments sound, committed or not. -/
theorem sound_upsertScraped {rows : List LedgerTransaction} {timezone : Option String}
    (hrows : ∀ row ∈ rows, row.synthetic = false ∧ ¬ IsPaymentId row.id ∧
      ∀ date, row.chargeDate = some date → isDateText date = true) :
    Transactional.Keeps (fun s s' : Session => PaymentsSound s.ledger →
      PaymentsSound s'.ledger ∧ PaymentsKept s.ledger s'.ledger)
      (upsertTransactions host rows timezone) := by
  intro s hsound
  cases houtcome : upsertTransactions host rows timezone s with
  | error e s' =>
      have hsame := upsertTransactions_error host houtcome
      change PaymentsSound s'.ledger ∧ PaymentsKept s.ledger s'.ledger
      rw [hsame]
      exact ⟨hsound, PaymentsKept.refl _⟩
  | ok summary s' =>
      obtain ⟨aliases, after, hresolved, hrun, hledger⟩ := upsertTransactions_ok host houtcome
      have hafter : ScrapedProgress s.ledger (summary, after).2 := by
        rw [← hrun]
        refine Runs.run_history (I := fun _ (state : UpsertSummary × Ledger) =>
          ScrapedProgress s.ledger state.2) (ScrapedProgress.start hsound) ?_
        intro done row state hinitial hstate
        obtain ⟨hplain, hid, hdate⟩ :=
          hrows row (hinitial.subset (List.mem_append_right _ List.mem_cons_self))
        refine hstate.step hsound ?_ hplain hid hdate
        intro id canonical hlookup
        exact ⟨batchAliases_stored hresolved hlookup,
          batchAliases_unsynthetic hsound (fun r hr => (hrows r hr).2.1) hresolved hlookup⟩
      obtain ⟨hsound', hkept⟩ := hafter.sound hsound
      change PaymentsSound s'.ledger ∧ PaymentsKept s.ledger s'.ledger
      rw [hledger]
      exact ⟨⟨⟨hsound'.backed, hsound'.recorded, hsound'.single⟩, hsound'.paymentIds,
        hsound'.scraped⟩, hkept.records, hkept.rows⟩

/-! ## Emitting the payments of an account -/

/-- A row adds its charge date, or counts in the group that has it. -/
theorem map_chargeDate_addToGroups (groups : List ChargeGroup) (row : LedgerTransaction) :
    (addToGroups groups row).map (·.chargeDate) = groups.map (·.chargeDate) ∨
      ∃ date, row.chargeDate = some date ∧ date ∉ groups.map (·.chargeDate) ∧
        (addToGroups groups row).map (·.chargeDate) = groups.map (·.chargeDate) ++ [date] := by
  unfold addToGroups
  cases hdate : row.chargeDate with
  | none => exact Or.inl rfl
  | some date =>
      dsimp only
      split_ifs with hempty hknown
      · exact Or.inl rfl
      · left
        rw [List.map_map]
        apply List.map_congr_left
        intro group _
        by_cases hgroup : group.chargeDate = date
        · simp [hgroup]
        · simp [hgroup]
      · right
        refine ⟨date, rfl, ?_, by rw [List.map_append]; rfl⟩
        intro hmem
        obtain ⟨group, hgroup, hsame⟩ := List.mem_map.mp hmem
        apply hknown
        rw [List.any_eq_true]
        exact ⟨group, hgroup, by simpa using hsame⟩

/-- The groups have distinct charge dates, all of them of a row. -/
theorem sumByChargeDate_spec (rows : List LedgerTransaction) :
    ((sumByChargeDate rows).map (·.chargeDate)).Nodup ∧
      ∀ date ∈ (sumByChargeDate rows).map (·.chargeDate),
        ∃ row ∈ rows, row.chargeDate = some date := by
  unfold sumByChargeDate
  induction rows using List.reverseRecOn with
  | nil => exact ⟨List.nodup_nil, fun _ h => absurd h List.not_mem_nil⟩
  | append_singleton rows row ih =>
      obtain ⟨hnodup, hdates⟩ := ih
      have hlift : ∀ date ∈ (rows.foldl addToGroups []).map (·.chargeDate),
          ∃ r ∈ rows ++ [row], r.chargeDate = some date := by
        intro date hdate
        obtain ⟨r, hr, hrdate⟩ := hdates date hdate
        exact ⟨r, List.mem_append_left _ hr, hrdate⟩
      rw [List.foldl_append, List.foldl_cons, List.foldl_nil]
      rcases map_chargeDate_addToGroups (rows.foldl addToGroups []) row with hsame | hnew
      · rw [hsame]
        exact ⟨hnodup, hlift⟩
      · obtain ⟨date, hrow, hfresh, hgroups⟩ := hnew
        rw [hgroups]
        constructor
        · rw [← List.concat_eq_append]
          exact hnodup.concat hfresh
        · intro d hd
          rcases List.mem_append.mp hd with hd | hd
          · exact hlift d hd
          · rw [List.mem_singleton.mp hd]
            exact ⟨row, List.mem_append_right _ List.mem_cons_self, hrow⟩

/-- The record of an emitted row. -/
def paymentOf (now : Instant) (row : LedgerTransaction) : SyntheticPayment where
  transactionId := row.id
  accountId := row.accountId
  chargeDate := row.chargeDate.getD ""
  amount := row.amount
  emittedAt := now

/-- A row emitted for one of the charge dates. -/
structure Emitted (account : LedgerAccount) (row : LedgerTransaction) (date : IsoDate) : Prop where
  chargeDate : row.chargeDate = some date
  id : syntheticPaymentId account.company account.accountNumber date = .ok row.id
  accountId : row.accountId = account.id
  synthetic : row.synthetic = true
  stamp : row.postedSeenAt = none

/-- The database gives an emitted row back as one. -/
theorem Emitted.stored {account : LedgerAccount} {row : LedgerTransaction} {date : IsoDate}
    (h : Emitted account row date) : Emitted account row.stored date :=
  ⟨h.chargeDate, h.id, h.accountId, h.synthetic, h.stamp⟩

/-- What holds after the groups `done` of the loop that began on `start`. -/
structure EmitProgress (account : LedgerAccount) (now : Instant) (emitted : List IsoDate)
    (start : Ledger) (done : List ChargeGroup) (created : List LedgerTransaction) (s : Session) :
    Prop where
  frame : s.ledger = { start with syntheticPayments := s.ledger.syntheticPayments }
  records : s.ledger.syntheticPayments.rows =
    start.syntheticPayments.rows ++ created.map (paymentOf now)
  rows : ∀ row ∈ created, ∃ date, Emitted account row date ∧ date ∉ emitted
  dates : (created.map (·.chargeDate)).Sublist (done.map fun group => some group.chargeDate)

/-- A payment is recorded under a new id. -/
theorem insertSyntheticPayment_ok {payment : SyntheticPayment} {s s' : Session} {u : Unit}
    (h : insertSyntheticPayment payment s = .ok u s') :
    s.ledger.syntheticPayments.find payment.transactionId = none ∧
      s'.ledger =
        { s.ledger with syntheticPayments := s.ledger.syntheticPayments.put payment } := by
  unfold insertSyntheticPayment at h
  have heffect := statement_ok h
  split_ifs at heffect with hstored
  exact ⟨by simpa using hstored, (Except.ok.inj heffect).symm⟩

/-- **One group.** -/
theorem EmitProgress.step {account : LedgerAccount} {config : CompanyConfig} {now : Instant}
    {cutoff : IsoDate} {emitted : List IsoDate} {partialUntil : Option IsoDate} {start : Ledger}
    {done : List ChargeGroup} {created created' : List LedgerTransaction} {group : ChargeGroup}
    {s s' : Session} (h : EmitProgress account now emitted start done created s)
    (hrun : emitPayment host account config now cutoff emitted partialUntil created group s =
      .ok created' s') :
    EmitProgress account now emitted start (done ++ [group]) created' s' := by
  unfold emitPayment at hrun
  split_ifs at hrun with hdue
  · obtain ⟨id, s₁, hlift, hinsert⟩ := Transactional.bind_ok.mp hrun
    obtain ⟨hid, rfl⟩ := liftExcept_ok hlift
    obtain ⟨u, s₂, hrecord, hreturn⟩ := Transactional.bind_ok.mp hinsert
    obtain ⟨rfl, rfl⟩ := Transactional.pure_ok.mp hreturn
    obtain ⟨hfree, hledger⟩ := insertSyntheticPayment_ok hrecord
    have hnew : group.chargeDate ∉ emitted := by
      unfold isDue at hdue
      simp only [Bool.and_eq_true, decide_eq_true_eq] at hdue
      exact hdue.1.1.2
    refine ⟨?_, ?_, ?_, ?_⟩
    · rw [hledger, h.frame]
    · rw [hledger]
      change (KeyedTable.put _ _).rows = _
      rw [KeyedTable.rows_put_of_find_none hfree, h.records, List.map_append, List.append_assoc]
      rfl
    · intro row hrow
      rcases List.mem_append.mp hrow with hrow | hrow
      · exact h.rows row hrow
      · obtain rfl := List.mem_singleton.mp hrow
        exact ⟨group.chargeDate, ⟨rfl, hid, rfl, rfl, rfl⟩, hnew⟩
    · rw [List.map_append, List.map_append]
      exact h.dates.append (List.Sublist.refl _)
  · obtain ⟨rfl, rfl⟩ := Transactional.pure_ok.mp hrun
    refine ⟨h.frame, h.records, h.rows, ?_⟩
    rw [List.map_append]
    exact h.dates.trans (List.sublist_append_left _ _)

/-- What the computation of an account's payments has done when it returns. -/
theorem computeSyntheticPayments_ok {account : LedgerAccount} {config : CompanyConfig}
    {today : IsoDate} {now : Instant} {s s' : Session} {created : List LedgerTransaction}
    (h : computeSyntheticPayments host account config today now s = .ok created s') :
    s'.ledger = { s.ledger with syntheticPayments := s'.ledger.syntheticPayments } ∧
      s'.ledger.syntheticPayments.rows =
        s.ledger.syntheticPayments.rows ++ created.map (paymentOf now) ∧
      (created.map (·.chargeDate)).Nodup ∧
      ∀ row ∈ created, ∃ date, Emitted account row date ∧
        (∀ payment ∈ s.ledger.syntheticPayments.rows, payment.accountId = account.id →
          payment.chargeDate ≠ date) ∧
        ∃ source ∈ s.ledger.transactions.rows, source.synthetic = false ∧
          source.chargeDate = some date := by
  unfold computeSyntheticPayments at h
  split_ifs at h with hskip
  · obtain ⟨rfl, rfl⟩ := Transactional.pure_ok.mp h
    exact ⟨rfl, (List.append_nil _).symm, List.nodup_nil, fun _ hrow => absurd hrow List.not_mem_nil⟩
  · obtain ⟨rows, s₁, hrows, hlist⟩ := Transactional.bind_ok.mp h
    obtain ⟨rfl, hs₁⟩ := query_ok hrows
    obtain ⟨payments, s₂, hpayments, hcut⟩ := Transactional.bind_ok.mp hlist
    obtain ⟨hemitted, hs₂⟩ := query_ok hpayments
    obtain ⟨cutoff, s₃, hcutoff, hbooked⟩ := Transactional.bind_ok.mp hcut
    obtain ⟨-, hs₃⟩ := liftExcept_ok hcutoff
    obtain ⟨earliest, s₄, hearliest, hcycle⟩ := Transactional.bind_ok.mp hbooked
    obtain ⟨-, hs₄⟩ := query_ok hearliest
    obtain ⟨partialUntil, s₅, hpartial, hloop⟩ := Transactional.bind_ok.mp hcycle
    obtain ⟨-, hs₅⟩ := liftExcept_ok hpartial
    have hledger : s₅.ledger = s.ledger := by rw [hs₅, hs₄, hs₃, hs₂, hs₁]
    have hstart : EmitProgress account now (payments.map SyntheticPayment.chargeDate) s.ledger [] [] s₅ := by
      refine ⟨by rw [hledger], ?_, fun _ hrow => absurd hrow List.not_mem_nil, List.Sublist.refl _⟩
      rw [hledger]
      exact (List.append_nil _).symm
    have hprogress := Transactional.foldlM_ok
      (fun done created s₆ => EmitProgress account now (payments.map SyntheticPayment.chargeDate) s.ledger done
        created s₆)
      (fun _ _ _ _ _ _ hdone hrun => hdone.step hrun) hstart hloop
    obtain ⟨hnodup, hdates⟩ := sumByChargeDate_spec (postedRows s.ledger account.id)
    have hperm := (List.perm_insertionSort (fun a b : ChargeGroup =>
      (host.localeCompare a.chargeDate b.chargeDate).isLE = true)
      (sumByChargeDate (postedRows s.ledger account.id))).map (·.chargeDate)
    refine ⟨hprogress.frame, hprogress.records, ?_, ?_⟩
    · apply hprogress.dates.nodup
      have hsome := (hperm.nodup_iff.mpr hnodup).map (Option.some_injective IsoDate)
      rwa [List.map_map] at hsome
    · intro row hrow
      obtain ⟨date, hrowEmitted, hnew⟩ := hprogress.rows row hrow
      refine ⟨date, hrowEmitted, ?_, ?_⟩
      · intro payment hpayment haccount hdate
        apply hnew
        rw [← hdate, hemitted]
        apply List.mem_map_of_mem
        rw [hs₁]
        exact List.mem_filter.mpr ⟨hpayment, by simpa using haccount⟩
      · have hmem := hprogress.dates.subset (List.mem_map_of_mem hrow)
        rw [hrowEmitted.chargeDate] at hmem
        obtain ⟨group, hgroup, hsame⟩ := List.mem_map.mp hmem
        obtain rfl := Option.some.inj hsame
        have hdate := hperm.mem_iff.mp (List.mem_map_of_mem hgroup)
        obtain ⟨source, hsource, hsourceDate⟩ := hdates _ hdate
        obtain ⟨hstored, hadmits⟩ := mem_listTransactions.mp hsource
        refine ⟨source, hstored, ?_, hsourceDate⟩
        unfold TransactionQuery.admits at hadmits
        simpa using (Bool.and_eq_true_iff.mp hadmits).2

/-! ## The rows of the payments -/

/-- Rows under free ids are appended, as the database keeps them. -/
theorem run_upsertStep_fresh {rows : List LedgerTransaction} {summary : UpsertSummary}
    {ledger : Ledger}
    (hnodup : ((ledger.transactions.rows ++ rows).map (·.id)).Nodup) :
    (Runs.run (upsertStep host []) (summary, ledger) rows).1.anomalies = summary.anomalies ∧
      ∃ transactions : KeyedTable LedgerTransaction LedgerTransaction.id,
        (Runs.run (upsertStep host []) (summary, ledger) rows).2 = { ledger with transactions } ∧
        transactions.rows =
          ledger.transactions.rows ++ rows.map LedgerTransaction.stored := by
  induction rows generalizing summary ledger with
  | nil => exact ⟨rfl, ledger.transactions, rfl, (List.append_nil _).symm⟩
  | cons row rows ih =>
      have hfree : ledger.transactions.find row.id = none := by
        rw [KeyedTable.find_eq_none]
        intro stored hstored hid
        rw [List.map_append, List.nodup_append] at hnodup
        exact hnodup.2.2 _ (List.mem_map_of_mem hstored) _
          (List.mem_map_of_mem List.mem_cons_self) hid
      have hput : (ledger.transactions.put row.stored).rows =
          ledger.transactions.rows ++ [row.stored] :=
        KeyedTable.rows_put_of_find_none (by rw [row.stored_id]; exact hfree)
      have hstep : upsertStep host [] (summary, ledger) row =
          ({ summary with inserted := summary.inserted + 1 },
            { ledger with transactions := ledger.transactions.put row.stored }) := by
        unfold upsertStep
        dsimp only
        rw [hfree]
        rfl
      have hnext := @ih { summary with inserted := summary.inserted + 1 }
        { ledger with transactions := ledger.transactions.put row.stored } (by
          change (((ledger.transactions.put row.stored).rows ++ rows).map (·.id)).Nodup
          rw [hput, List.append_assoc, List.singleton_append, List.map_append, List.map_cons,
            row.stored_id]
          rwa [List.map_append, List.map_cons] at hnodup)
      rw [Runs.run_cons, hstep]
      obtain ⟨hanomalies, transactions, hledger, hrows⟩ := hnext
      refine ⟨hanomalies, transactions, hledger, ?_⟩
      rw [hrows]
      change (ledger.transactions.put row.stored).rows ++ _ = _
      rw [hput, List.append_assoc, List.singleton_append, List.map_cons]

/-- **A batch of payments.**  Appending new records and their rows together
keeps the payments sound. -/
theorem sound_append {account : LedgerAccount} {now : Instant} {before after : Ledger}
    {created : List LedgerTransaction} (hsound : PaymentsSound before)
    (hrows : after.transactions.rows = before.transactions.rows ++ created)
    (hrecords : after.syntheticPayments.rows =
      before.syntheticPayments.rows ++ created.map (paymentOf now))
    (hdates : (created.map (·.chargeDate)).Nodup)
    (hcreated : ∀ row ∈ created, ∃ date, Emitted account row date ∧
      (∀ payment ∈ before.syntheticPayments.rows, payment.accountId = account.id →
        payment.chargeDate ≠ date) ∧ isDateText date = true) :
    PaymentsSound after ∧ PaymentsKept before after := by
  have hof : ∀ row ∈ created, (paymentOf now row).IsOf row := by
    intro row hrow
    obtain ⟨date, hemitted, -, -⟩ := hcreated row hrow
    refine ⟨rfl, hemitted.synthetic, rfl, ?_, rfl⟩
    rw [hemitted.chargeDate]
    simp [paymentOf, hemitted.chargeDate]
  refine ⟨⟨⟨?_, ?_, ?_⟩, ?_, ?_⟩, ?_, ?_⟩
  · intro payment hpayment
    rw [hrecords] at hpayment
    rw [hrows]
    rcases List.mem_append.mp hpayment with hold | hnew
    · obtain ⟨row, hrow, hpaymentOf⟩ := hsound.backed payment hold
      exact ⟨row, List.mem_append_left _ hrow, hpaymentOf⟩
    · obtain ⟨row, hrow, rfl⟩ := List.mem_map.mp hnew
      exact ⟨row, List.mem_append_right _ hrow, hof row hrow⟩
  · intro row hrow hsynthetic
    rw [hrows] at hrow
    rw [hrecords]
    rcases List.mem_append.mp hrow with hold | hnew
    · obtain ⟨payment, hpayment, hpaymentOf⟩ := hsound.recorded row hold hsynthetic
      exact ⟨payment, List.mem_append_left _ hpayment, hpaymentOf⟩
    · exact ⟨_, List.mem_append_right _ (List.mem_map_of_mem hnew), hof row hnew⟩
  · -- a new record is for an account and date that had none
    have hdate : ∀ row ∈ created, ∃ date, row.chargeDate = some date ∧
        (paymentOf now row).chargeDate = date ∧ (paymentOf now row).accountId = account.id ∧
        ∀ payment ∈ before.syntheticPayments.rows, payment.accountId = account.id →
          payment.chargeDate ≠ date := by
      intro row hrow
      obtain ⟨date, hemitted, hnew, -⟩ := hcreated row hrow
      refine ⟨date, hemitted.chargeDate, ?_, hemitted.accountId, hnew⟩
      simp [paymentOf, hemitted.chargeDate]
    intro payment hpayment other hother haccount hchargeDate
    rw [hrecords] at hpayment hother
    rcases List.mem_append.mp hpayment with hold | hnew
    · rcases List.mem_append.mp hother with hold' | hnew'
      · exact hsound.single payment hold other hold' haccount hchargeDate
      · obtain ⟨row, hrow, rfl⟩ := List.mem_map.mp hnew'
        obtain ⟨date, -, hrowDate, hrowAccount, hfree⟩ := hdate row hrow
        exact absurd (hchargeDate.trans hrowDate) (hfree payment hold (haccount.trans hrowAccount))
    · obtain ⟨row, hrow, rfl⟩ := List.mem_map.mp hnew
      obtain ⟨date, hrowSome, hrowDate, hrowAccount, hfree⟩ := hdate row hrow
      rcases List.mem_append.mp hother with hold' | hnew'
      · exact absurd (hchargeDate.symm.trans hrowDate)
          (hfree other hold' (haccount.symm.trans hrowAccount))
      · obtain ⟨row', hrow', rfl⟩ := List.mem_map.mp hnew'
        obtain ⟨date', hrowSome', hrowDate', -, -⟩ := hdate row' hrow'
        have hsame : row.chargeDate = row'.chargeDate := by
          rw [hrowSome, hrowSome', ← hrowDate, ← hrowDate', hchargeDate]
        rw [List.inj_on_of_nodup_map hdates hrow hrow' hsame]
  · intro payment hpayment
    rw [hrecords] at hpayment
    rcases List.mem_append.mp hpayment with hold | hnew
    · exact hsound.paymentIds payment hold
    · obtain ⟨row, hrow, rfl⟩ := List.mem_map.mp hnew
      obtain ⟨date, hemitted, -, hdate⟩ := hcreated row hrow
      exact ⟨_, _, date, hdate, hemitted.id⟩
  · intro row hrow hplain
    rw [hrows] at hrow
    rcases List.mem_append.mp hrow with hold | hnew
    · exact hsound.scraped row hold hplain
    · obtain ⟨date, hemitted, -, -⟩ := hcreated row hnew
      rw [hemitted.synthetic] at hplain
      cases hplain
  · intro payment hpayment
    rw [hrecords]
    exact List.mem_append_left _ hpayment
  · intro row hrow _
    rw [hrows]
    exact List.mem_append_left _ hrow

/-- Emitted rows have ids of their own, distinct from all stored ones. -/
theorem nodup_ids_created {account : LedgerAccount} {now : Instant} {before : Ledger}
    {created : List LedgerTransaction} (hsound : PaymentsSound before)
    (payments : KeyedTable SyntheticPayment SyntheticPayment.transactionId)
    (hrecords : payments.rows = before.syntheticPayments.rows ++ created.map (paymentOf now))
    (hcreated : ∀ row ∈ created, ∃ date, Emitted account row date ∧
      (∀ payment ∈ before.syntheticPayments.rows, payment.accountId = account.id →
        payment.chargeDate ≠ date) ∧ isDateText date = true) :
    ((before.transactions.rows ++ created).map (·.id)).Nodup := by
  have hids := payments.nodup
  rw [hrecords, List.map_append, List.nodup_append, List.map_map] at hids
  obtain ⟨-, hnew, hapart⟩ := hids
  rw [List.map_append, List.nodup_append]
  refine ⟨before.transactions.nodup, hnew, ?_⟩
  intro id hstored id' hemitted hsame
  obtain ⟨row, hrow, rfl⟩ := List.mem_map.mp hstored
  obtain ⟨row', hrow', rfl⟩ := List.mem_map.mp hemitted
  cases hsynthetic : row.synthetic with
  | true =>
      obtain ⟨payment, hpayment, hid, -⟩ := hsound.recorded row hrow hsynthetic
      exact hapart _ (List.mem_map_of_mem hpayment) _ (List.mem_map_of_mem hrow')
        (hid.symm.trans hsame)
  | false =>
      obtain ⟨date, hrowOf, -, hdate⟩ := hcreated row' hrow'
      apply (hsound.scraped row hrow hsynthetic).1
      rw [hsame]
      exact ⟨_, _, date, hdate, hrowOf.id⟩

/-- The payments of one account, when they complete. -/
theorem sound_ingestPayments_ok {companyConfig : CompanyConfig} {today : IsoDate}
    {emittedAt : String → Instant} {account : LedgerAccount} {s s' : Session} {u : Unit}
    (hsound : PaymentsSound s.ledger)
    (h : ingestPayments host companyConfig today emittedAt account s = .ok u s') :
    PaymentsSound s'.ledger ∧ PaymentsKept s.ledger s'.ledger := by
  unfold ingestPayments at h
  obtain ⟨stored, s₁, hquery, hpay⟩ := Transactional.bind_ok.mp h
  obtain ⟨-, hs₁⟩ := query_ok hquery
  obtain ⟨created, s₂, hcompute, hupsert⟩ := Transactional.bind_ok.mp hpay
  obtain ⟨hframe, hrecords, hdates, hcreated⟩ := computeSyntheticPayments_ok hcompute
  rw [← hs₁] at hsound ⊢
  have hrowsOf : ∀ row ∈ created, ∃ date, Emitted (stored.getD account) row date ∧
      (∀ payment ∈ s₁.ledger.syntheticPayments.rows,
        payment.accountId = (stored.getD account).id → payment.chargeDate ≠ date) ∧
      isDateText date = true := by
    intro row hrow
    obtain ⟨date, hemitted, hnew, source, hsource, hplain, hdate⟩ := hcreated row hrow
    exact ⟨date, hemitted, hnew, (hsound.scraped source hsource hplain).2 date hdate⟩
  have htransactions : s₂.ledger.transactions = s₁.ledger.transactions := by rw [hframe]
  split_ifs at hupsert with hany
  · obtain ⟨summary, s₃, hrows, hreturn⟩ := Transactional.bind_ok.mp hupsert
    obtain ⟨-, rfl⟩ := Transactional.pure_ok.mp hreturn
    obtain ⟨aliases, after, haliases, hrun, hledger⟩ := upsertTransactions_ok host hrows
    obtain rfl := Except.ok.inj haliases
    have hnodup : ((s₂.ledger.transactions.rows ++ created).map (·.id)).Nodup := by
      rw [htransactions]
      exact nodup_ids_created hsound s₂.ledger.syntheticPayments hrecords hrowsOf
    obtain ⟨-, transactions, htables, happended⟩ :=
      @run_upsertStep_fresh host created {} s₂.ledger hnodup
    rw [hrun] at htables
    dsimp only at htables
    have hafterRows : s'.ledger.transactions.rows =
        s₁.ledger.transactions.rows ++ created.map LedgerTransaction.stored := by
      rw [hledger, htables]
      change transactions.rows = _
      rw [happended, htransactions]
    have hafterRecords : s'.ledger.syntheticPayments.rows =
        s₁.ledger.syntheticPayments.rows ++
          (created.map LedgerTransaction.stored).map (paymentOf (emittedAt account.id)) := by
      rw [hledger, htables, List.map_map]
      exact hrecords
    have hstoredDates : ((created.map LedgerTransaction.stored).map (·.chargeDate)).Nodup := by
      rw [List.map_map]
      exact hdates
    have hstoredOf : ∀ row ∈ created.map LedgerTransaction.stored,
        ∃ date, Emitted (stored.getD account) row date ∧
          (∀ payment ∈ s₁.ledger.syntheticPayments.rows,
            payment.accountId = (stored.getD account).id → payment.chargeDate ≠ date) ∧
          isDateText date = true := by
      intro row hrow
      obtain ⟨emitted, hmem, rfl⟩ := List.mem_map.mp hrow
      obtain ⟨date, hemitted, hnew⟩ := hrowsOf emitted hmem
      exact ⟨date, hemitted.stored, hnew⟩
    exact sound_append hsound hafterRows hafterRecords hstoredDates hstoredOf
  · obtain ⟨-, rfl⟩ := Transactional.pure_ok.mp hupsert
    obtain rfl : created = [] := by simpa using hany
    have hafterRows : s'.ledger.transactions.rows = s₁.ledger.transactions.rows ++ [] := by
      rw [htransactions, List.append_nil]
    exact sound_append hsound hafterRows hrecords hdates hrowsOf

/-! ## One call -/

/-- However an operation ends, the payments stay sound and unchanged. -/
abbrev KeepsSound {α : Type} (operation : LedgerM α) : Prop :=
  Transactional.Keeps (fun s s' : Session => PaymentsSound s.ledger →
    PaymentsSound s'.ledger ∧ PaymentsKept s.ledger s'.ledger) operation

/-- The payments are read off two tables. -/
theorem PaymentsSound.of_same {before after : Ledger} (h : PaymentsSound before)
    (htransactions : after.transactions = before.transactions)
    (hpayments : after.syntheticPayments.rows = before.syntheticPayments.rows) :
    PaymentsSound after ∧ PaymentsKept before after := by
  obtain ⟨⟨hbacked, hrecorded, hsingle⟩, hids, hscraped⟩ := h
  refine ⟨⟨⟨?_, ?_, ?_⟩, ?_, ?_⟩, ?_, ?_⟩
  · rw [htransactions, hpayments]
    exact hbacked
  · rw [htransactions, hpayments]
    exact hrecorded
  · rw [hpayments]
    exact hsingle
  · rw [hpayments]
    exact hids
  · rw [htransactions]
    exact hscraped
  · rw [hpayments]
    exact fun _ hpayment => hpayment
  · rw [htransactions]
    exact fun _ hrow _ => hrow

/-- What touches neither rows nor records keeps them in step, -/
theorem keepsSound_of_frames {α : Type} {operation : LedgerM α}
    (h : Frames (fun ledger => (ledger.transactions, ledger.syntheticPayments)) operation) :
    KeepsSound operation := by
  intro s hsound
  obtain ⟨htransactions, hpayments⟩ := Prod.mk.inj (h s)
  exact hsound.of_same htransactions (congrArg KeyedTable.rows hpayments)

/-- and so do two such programs. -/
theorem KeepsSound.bind {α β : Type} {first : LedgerM α} {rest : α → LedgerM β}
    (hfirst : KeepsSound first) (hrest : ∀ a, KeepsSound (rest a)) :
    KeepsSound (first >>= rest) := by
  refine Transactional.Keeps.bind ?_ hfirst hrest
  intro s₁ s₂ s₃ h₁ h₂ hsound
  obtain ⟨hsound₂, hkept₁⟩ := h₁ hsound
  obtain ⟨hsound₃, hkept₂⟩ := h₂ hsound₂
  exact ⟨hsound₃, hkept₁.trans hkept₂⟩

/-- Writing a result keeps the payments sound, wherever it stops. -/
theorem keepsSound_ingestScraped {config : Config} {result : SourceFetchResult}
    (hresult : FromScraper result) : KeepsSound (ingestScraped host config result) := by
  unfold ingestScraped
  apply KeepsSound.bind
  · apply keepsSound_of_frames
    apply frames_foldlM
    intro _ account _
    exact frames_upsertAccount (fun _ _ => rfl) account
  · intro _
    apply KeepsSound.bind (sound_upsertScraped hresult)
    intro summary
    apply KeepsSound.bind
    · exact keepsSound_of_frames (frames_upsertHoldings (fun _ _ => rfl) _)
    · exact fun _ => keepsSound_of_frames (frames_pure _)

/-- The payments of one account, when they stop before the first record. -/
theorem sound_ingestPayments_error {companyConfig : CompanyConfig} {today : IsoDate}
    {emittedAt : String → Instant} {account : LedgerAccount} {s s' : Session} {e : BridgeError}
    (hsound : PaymentsSound s.ledger)
    (h : ingestPayments host companyConfig today emittedAt account s = .error e s')
    (hnone : s'.ledger.syntheticPayments.rows = s.ledger.syntheticPayments.rows) :
    PaymentsSound s'.ledger ∧ PaymentsKept s.ledger s'.ledger := by
  have hstop : Transactional.Ensures
      (fun s₁ : Session => s₁.ledger.transactions = s.ledger.transactions)
      (ingestPayments host companyConfig today emittedAt account) (fun _ _ => True)
      (fun s₁ => s₁.ledger.transactions = s.ledger.transactions) := by
    unfold ingestPayments
    apply Transactional.Ensures.bind
      (Frames.ensures (frames_query _))
    intro stored
    apply Transactional.Ensures.bind
      (Frames.ensures (frames_computeSyntheticPayments host (fun _ _ => rfl) _ _ _ _))
    intro created s₁ hs₁
    split_ifs
    · cases hupsert : upsertTransactions host created none s₁ with
      | ok summary s₂ =>
          rw [Transactional.bind_of_ok hupsert]
          trivial
      | error e s₂ =>
          rw [Transactional.bind_of_error hupsert]
          change s₂.ledger.transactions = _
          rw [upsertTransactions_error host hupsert]
          exact hs₁
    · trivial
  have htransactions := hstop s rfl
  rw [h] at htransactions
  exact hsound.of_same htransactions hnone

/-- The loop over the accounts, when it does not stop unpaired. -/
theorem sound_payments {run : IngestRun} {accounts : List LedgerAccount} {s : Session}
    (hsound : PaymentsSound s.ledger)
    (hpaired : paymentsStopUnpaired host run accounts s = false) :
    PaymentsSound (Transactional.storeAfter (accounts.foldlM (fun _ account =>
        ingestPayments host run.companyConfig run.today run.emittedAt account) () s)).ledger ∧
      PaymentsKept s.ledger (Transactional.storeAfter (accounts.foldlM (fun _ account =>
        ingestPayments host run.companyConfig run.today run.emittedAt account) () s)).ledger := by
  induction accounts generalizing s with
  | nil => exact ⟨hsound, PaymentsKept.refl _⟩
  | cons account accounts ih =>
      rw [List.foldlM_cons]
      unfold paymentsStopUnpaired at hpaired
      cases hfirst : ingestPayments host run.companyConfig run.today run.emittedAt account s with
      | ok u s' =>
          rw [hfirst] at hpaired
          obtain ⟨hsound', hkept⟩ := sound_ingestPayments_ok hsound hfirst
          obtain ⟨hfinal, hrest⟩ := ih hsound' hpaired
          rw [Transactional.bind_of_ok hfirst]
          exact ⟨hfinal, hkept.trans hrest⟩
      | error e s' =>
          rw [hfirst] at hpaired
          rw [Transactional.bind_of_error hfirst]
          have hnone : s'.ledger.syntheticPayments.rows = s.ledger.syntheticPayments.rows := by
            simpa using hpaired
          exact sound_ingestPayments_error hsound hfirst hnone

/-- **One ingestion** that does not stop unpaired keeps the payments sound. -/
theorem sound_ingest {config : Config} {ledger : Ledger} {run : IngestRun}
    (hresult : FromScraper run.result) (hpaired : stopsUnpaired host config ledger run = false)
    (hsound : PaymentsSound ledger) :
    PaymentsSound (ingest host config ledger run) ∧
      PaymentsKept ledger (ingest host config ledger run) := by
  have hscraped := @keepsSound_ingestScraped host config _ hresult
    ⟨ledger, run.faults⟩ hsound
  unfold stopsUnpaired at hpaired
  unfold ingest ingestOutcome
  rw [applySuccess_eq]
  cases hrun : ingestScraped host config run.result ⟨ledger, run.faults⟩ with
  | error e s =>
      rw [hrun] at hscraped
      rw [Transactional.bind_of_error hrun]
      exact hscraped
  | ok summary s =>
      rw [hrun] at hscraped hpaired
      obtain ⟨hsound', hkept⟩ := hscraped
      rw [Transactional.bind_of_ok hrun, Transactional.storeAfter_discard]
      obtain ⟨hfinal, hrest⟩ := sound_payments hsound' hpaired
      exact ⟨hfinal, hkept.trans hrest⟩

/-- **Payments in step.**  Over any run of ingestions of scraped results on an
empty ledger, stopped and failing anywhere but between the first record of an
account and the commit of its rows, records and synthetic rows belong together
in every state, and neither is ever changed. -/
theorem payments_in_step (host : Host) (config : Config) (runs : List IngestRun)
    (hresults : ∀ run ∈ runs, FromScraper run.result)
    (hpaired : Runs.Along (ingest host config)
      (fun ledger run _ => stopsUnpaired host config ledger run = false) emptyLedger runs) :
    Runs.Along (ingest host config)
      (fun before _ after => PaymentsInStep after ∧ PaymentsKept before after) emptyLedger runs := by
  have hstart : PaymentsSound emptyLedger := by
    refine ⟨⟨?_, ?_, ?_⟩, ?_, ?_⟩ <;> exact fun _ h => absurd h List.not_mem_nil
  refine (hpaired.and_inputs hresults).of_invariant hstart ?_
  intro ledger run hsound hrun
  obtain ⟨hresult, hwhole⟩ := hrun
  obtain ⟨hsound', hkept⟩ := sound_ingest hresult hwhole hsound
  exact ⟨hsound', hsound'.toPaymentsInStep, hkept⟩

/-! ## What the normaliser promises -/

/-- What follows the last colon of an id. -/
def lastSegment (id : List Char) : List Char := (id.reverse.takeWhile (· ≠ ':')).reverse

/-- The last segment of an id. -/
theorem lastSegment_append {before tail : List Char} (h : ':' ∉ tail) :
    lastSegment (before ++ ':' :: tail) = tail := by
  have hall : ∀ c ∈ tail.reverse, decide (c ≠ ':') = true := by
    intro c hc
    have hne : c ≠ ':' := fun heq => h (heq ▸ List.mem_reverse.mp hc)
    simpa using hne
  unfold lastSegment
  rw [List.reverse_append, List.reverse_cons, List.append_assoc, List.singleton_append,
    List.takeWhile_append_of_pos hall, List.takeWhile_cons]
  simp

/-- The last segment of a payment id is a calendar date. -/
theorem IsPaymentId.lastSegment {id : String} (h : IsPaymentId id) :
    isDateText (String.ofList (lastSegment id.toList)) = true := by
  obtain ⟨company, accountNumber, chargeDate, hdate, hid⟩ := h
  obtain ⟨account, -, hid⟩ := Transactional.except_bind_ok.mp hid
  unfold assertId at hid
  split_ifs at hid
  obtain rfl := Except.ok.inj hid
  have hcolon : ':' ∉ chargeDate.toList := by
    intro hmem
    have hall := (Bool.and_eq_true_iff.mp hdate).1
    have hc := List.all_eq_true.mp hall _ hmem
    revert hc
    decide
  have hsplit : (account ++ ":payment:" ++ chargeDate).toList =
      (account ++ ":payment").toList ++ ':' :: chargeDate.toList := by
    simp [String.toList_append]
  rw [hsplit, lastSegment_append hcolon, String.ofList_toList]
  exact hdate

/-- The hexadecimal digits of a hash. -/
def isHashChar (c : Char) : Bool := c.isDigit || 'a' ≤ c && c ≤ 'f'

/-- `sha256` is printed in hexadecimal. -/
def HexDigests (host : Host) : Prop := ∀ text, ∀ c ∈ (host.sha256 text).toList, isHashChar c = true

/-- What follows the fingerprint in a row's id. -/
theorem toList_ordinalId (base : String) (ordinal : Nat) :
    ∃ suffix : List Char, (ordinalId base ordinal).toList = base.toList ++ suffix ∧
      ∀ c ∈ suffix, c = '#' ∨ c.isDigit = true := by
  unfold ordinalId
  split_ifs
  · refine ⟨'#' :: Nat.toDigits 10 ordinal, ?_, ?_⟩
    · change (base ++ "#" ++ ordinal.repr).toList = _
      simp [String.toList_append]
    · intro c hc
      rcases List.mem_cons.mp hc with rfl | hc
      · exact Or.inl rfl
      · exact Or.inr (Nat.isDigit_of_mem_toDigits (by decide) (by decide) hc)
  · exact ⟨[], (List.append_nil _).symm, fun _ h => absurd h List.not_mem_nil⟩

/-- A base id ends in the fingerprint of its row. -/
theorem toList_baseTransactionId {row : TransactionFields} {base : String}
    (h : baseTransactionId host row = .ok base) :
    ∃ before : List Char,
      base.toList = before ++ ':' :: (transactionFingerprint host row).toList := by
  unfold baseTransactionId at h
  obtain ⟨accountNumber, -, hid⟩ := Transactional.except_bind_ok.mp h
  have hparts : ∃ account segment, assertId (account ++ ":" ++ segment ++ ":" ++
      transactionFingerprint host row ++ "") = .ok base := by
    obtain ⟨segment, -, hrest⟩ := Transactional.except_bind_ok.mp hid
    obtain ⟨account, -, hassert⟩ := Transactional.except_bind_ok.mp hrest
    exact ⟨account, segment, hassert⟩
  obtain ⟨account, segment, hassert⟩ := hparts
  unfold assertId at hassert
  split_ifs at hassert
  obtain rfl := Except.ok.inj hassert
  refine ⟨(account ++ ":" ++ segment).toList, ?_⟩
  simp [String.toList_append]

/-- The last segment of a scraped row's id is a fingerprint with an ordinal,
which has no dash. -/
theorem not_isPaymentId_of_numbered
    (hhash : ∀ text, ∀ c ∈ (host.sha256 text).toList, isHashChar c = true)
    {rows : List TransactionFields} {entry : IndexedRow} {row : LedgerTransaction}
    (h : numberedRow host rows entry = .ok row) : ¬ IsPaymentId row.id := by
  intro hpayment
  obtain ⟨-, base, hbase, hid⟩ := numberedRow_spec h
  obtain ⟨before, hbefore⟩ := toList_baseTransactionId hbase
  obtain ⟨suffix, hsuffix, hordinal⟩ :=
    toList_ordinalId base (earlierTwins host rows entry + 1)
  have htail : ∀ c ∈ (transactionFingerprint host entry.1).toList ++ suffix, c ≠ ':' ∧ c ≠ '-' := by
    intro c hc
    rcases List.mem_append.mp hc with hc | hc
    · have hhex : isHashChar c = true := by
        unfold transactionFingerprint at hc
        rw [String.toList_ofList] at hc
        exact hhash _ c (List.mem_of_mem_take hc)
      constructor <;> rintro rfl <;> revert hhex <;> decide
    · have hshape := hordinal c hc
      constructor <;> rintro rfl <;> revert hshape <;> decide
  have hdate := hpayment.lastSegment
  rw [hid, hsuffix, hbefore, List.append_assoc, List.cons_append,
    lastSegment_append (fun hmem => (htail _ hmem).1 rfl)] at hdate
  unfold isDateText at hdate
  rw [String.toList_ofList] at hdate
  have hdash := of_decide_eq_true (Bool.and_eq_true_iff.mp hdate).2
  exact (htail _ hdash).2 rfl

/-- A row from the scraper is charged on a day the time zone gives. -/
theorem normalizeTransaction_chargeDate {source : Json} {account : LedgerAccount}
    {input : NormalizeInput} {row : TransactionFields}
    (h : normalizeTransaction host source account input = .ok (some row)) :
    row.synthetic = false ∧ ∀ date, row.chargeDate = some date →
      ∃ value, host.momentDate value input.timezone = some date := by
  unfold normalizeTransaction at h
  split at h
  · obtain ⟨processed, hprocessed, hbooked⟩ := Transactional.except_bind_ok.mp h
    obtain ⟨purchase, -, hrow⟩ := Transactional.except_bind_ok.mp hbooked
    obtain rfl := Option.some.inj (Except.ok.inj hrow)
    refine ⟨rfl, ?_⟩
    intro date hdate
    change processed = some date at hdate
    rw [hdate] at hprocessed
    cases hfield : timestamp (source.field "processedDate") with
    | none =>
        rw [hfield] at hprocessed
        cases hprocessed
    | some value =>
        rw [hfield] at hprocessed
        obtain ⟨day, hday, hsame⟩ := Transactional.except_bind_ok.mp hprocessed
        obtain rfl := Option.some.inj (Except.ok.inj hsame)
        refine ⟨value, ?_⟩
        dsimp only [toCalendarDate] at hday
        split at hday
        · rename_i heq
          rw [heq]
          exact congrArg some (Except.ok.inj hday)
        · cases hday
  · cases h

/-- **What the normaliser promises.**  With hashes in hexadecimal and calendar
dates of digits and dashes, the rows of a scrape are not synthetic and none has
the id of a payment. -/
theorem fromScraper_normalizeScrapeResult
    (hhash : ∀ text, ∀ c ∈ (host.sha256 text).toList, isHashChar c = true)
    (hdates : ∀ value timezone date,
      host.momentDate value timezone = some date → isDateText date = true)
    {input : NormalizeInput} {result : SourceFetchResult}
    (h : normalizeScrapeResult host input = .ok result) : FromScraper result := by
  intro row hrow
  obtain ⟨batches, assigned, hbatches, hassigned, htransactions⟩ := normalizeScrapeResult_ok h
  rw [htransactions] at hrow
  obtain ⟨transactions, htransactions, hrow⟩ := List.mem_flatten.mp hrow
  have hbatch : Except.ok transactions ∈ batches.map (assignTransactionIds host) := by
    rw [hassigned]
    exact List.mem_map_of_mem htransactions
  obtain ⟨rows, hrows, hassign⟩ := List.mem_map.mp hbatch
  have hnumbered : Except.ok row ∈ rows.zipIdx.map (numberedRow host rows) := by
    rw [assignTransactionIds_ok_iff.mp hassign]
    exact List.mem_map_of_mem hrow
  obtain ⟨entry, hentry, hrowOf⟩ := List.mem_map.mp hnumbered
  obtain ⟨hfields, -⟩ := numberedRow_spec hrowOf
  obtain ⟨source, account, hsource⟩ :=
    exists_source_of_prepared hbatches hrows (List.fst_mem_of_mem_zipIdx hentry)
  obtain ⟨hplain, hcharged⟩ := normalizeTransaction_chargeDate hsource
  rw [← hfields] at hplain hcharged
  refine ⟨hplain, not_isPaymentId_of_numbered hhash hrowOf, ?_⟩
  intro date hdate
  obtain ⟨value, hvalue⟩ := hcharged date hdate
  exact hdates _ _ _ hvalue

/-! ## A stopped payment -/

/-- A card whose payments are synthesised. -/
def payingCompany : CompanyConfig := { calCompany with synthesizePayments := true }

/-- A purchase that Cal charges on 10 February. -/
def dinner : LedgerTransaction :=
  { archivedFridge with
    id := "visaCal:1234:-:0123456789abcdef"
    identifier := none
    bookedDate := "2026-01-02"
    chargeDate := some "2026-02-10"
    amount := -100
    description := "Dinner"
    installmentNumber := none
    installmentTotal := none
    raw := .obj [] }

/-- A scrape with one dinner. -/
def dinnerScrape : SourceFetchResult where
  accounts := [calAccount]
  transactions := [dinner]
  holdings := []
  scrapedAt := 0

/-- Its ingestion, with refused statements. -/
def dinnerRun (faults : List Bool) : IngestRun :=
  ⟨payingCompany, dinnerScrape, "2026-03-01", fun _ => 0, faults⟩

/-- The dinner comes from the scraper, -/
theorem fromScraper_dinnerScrape : FromScraper dinnerScrape := by
  intro row hrow
  obtain rfl := List.mem_singleton.mp hrow
  refine ⟨rfl, ?_, ?_⟩
  · intro hpayment
    have hdate := hpayment.lastSegment
    revert hdate
    decide +kernel
  · intro date hdate
    obtain rfl := Option.some.inj hdate
    decide +kernel

/-- whatever is refused. -/
theorem fromScraper_dinnerRuns {faults : List (List Bool)} :
    ∀ run ∈ faults.map dinnerRun, FromScraper run.result := by
  intro run hrun
  obtain ⟨fault, -, rfl⟩ := List.mem_map.mp hrun
  exact fromScraper_dinnerScrape

/-- Two scrapes that complete emit the payment once. -/
theorem payments_in_step_dinner :
    Runs.Along (ingest asciiHost calConfig)
      (fun before _ after => PaymentsInStep after ∧ PaymentsKept before after) emptyLedger
      ([[], []].map dinnerRun) := by
  refine payments_in_step asciiHost calConfig ([[], []].map dinnerRun) fromScraper_dinnerRuns ?_
  refine ⟨?_, ?_, trivial⟩ <;> decide +kernel

/-- The first scrape stops when the payment row is written, after its record.
The next one completes, but the record keeps it from computing the payment: the
payment is in no transaction. -/
theorem stopped_payment_is_lost :
    (∀ run ∈ [List.replicate 9 false ++ [true], []].map dinnerRun, FromScraper run.result) ∧
      ∃ (counts : Counts) (s : Session),
        ingestOutcome asciiHost calConfig
          (ingest asciiHost calConfig emptyLedger (dinnerRun (List.replicate 9 false ++ [true])))
          (dinnerRun []) = .ok counts s ∧ ¬ PaymentsInStep s.ledger := by
  refine ⟨fromScraper_dinnerRuns, ?_⟩
  have hlost : (match ingestOutcome asciiHost calConfig
      (ingest asciiHost calConfig emptyLedger (dinnerRun (List.replicate 9 false ++ [true])))
      (dinnerRun []) with
    | .ok _ s => !s.ledger.syntheticPayments.rows.isEmpty &&
        s.ledger.transactions.rows.all (fun row => !row.synthetic)
    | .error _ _ => false) = true := by decide +kernel
  cases hrun : ingestOutcome asciiHost calConfig
      (ingest asciiHost calConfig emptyLedger (dinnerRun (List.replicate 9 false ++ [true])))
      (dinnerRun []) with
  | error e s =>
      rw [hrun] at hlost
      cases hlost
  | ok counts s =>
      rw [hrun] at hlost
      obtain ⟨hrecord, hplain⟩ := Bool.and_eq_true_iff.mp hlost
      refine ⟨counts, s, rfl, ?_⟩
      intro hinStep
      obtain ⟨payment, hpayment⟩ := List.exists_mem_of_ne_nil s.ledger.syntheticPayments.rows
        (by simpa using hrecord)
      obtain ⟨row, hrow, -, hsynthetic, -⟩ := hinStep.backed payment hpayment
      have hnone := List.all_eq_true.mp hplain row hrow
      rw [hsynthetic] at hnone
      cases hnone

end

end SimplefinBridge
