import SimplefinBridge.Ids
import SimplefinBridge.SqliteLedger

/-!
# Synthetic card payments

One positive row per charge date of a credit card, emitted once the cycle has
settled and recorded in `synthetic_payments` before the rows themselves are
upserted.
-/

namespace SimplefinBridge

/-- `SETTLE_DAYS` -/
def settleDays : Int := 2

/-- `PARTIAL_CYCLE_DAYS` -/
def partialCycleDays : Int := 35

/-- Total and number of the rows of one charge date. -/
structure ChargeGroup where
  chargeDate : IsoDate
  total : ℚ
  count : Nat
  deriving DecidableEq

def addToGroups (groups : List ChargeGroup) (row : LedgerTransaction) : List ChargeGroup :=
  match row.chargeDate with
  | none => groups
  | some chargeDate =>
      if chargeDate = "" then groups
      else if groups.any (·.chargeDate = chargeDate) then
        groups.map fun group =>
          if group.chargeDate = chargeDate then
            { group with total := group.total + row.amount, count := group.count + 1 }
          else group
      else groups ++ [⟨chargeDate, row.amount, 1⟩]

/-- Sum of the amounts per charge date, in the order of first appearance. -/
def sumByChargeDate (rows : List LedgerTransaction) : List ChargeGroup := rows.foldl addToGroups []

/-- The posted rows of the scraper. -/
def postedRows (ledger : Ledger) (accountId : String) : List LedgerTransaction :=
  listTransactions { accountIds := some [accountId], includePending := false, includeSynthetic := false }
    ledger

/-- `SELECT min(booked_date) … AND synthetic = 0` -/
def earliestBookedDate (ledger : Ledger) (accountId : String) : Option IsoDate :=
  let dates := (ledger.transactions.rows.filter fun row =>
    row.accountId = accountId && !row.synthetic).map (·.bookedDate)
  dates.foldl (fun earliest date => if earliest.any (· ≤ date) then earliest else some date) none

section
variable (host : Host)

/-- The row of one payment. -/
def paymentRow (account : LedgerAccount) (config : CompanyConfig) (now : Instant)
    (group : ChargeGroup) (id : String) (amount : ℚ) : LedgerTransaction where
  id
  accountId := account.id
  company := account.company
  identifier := none
  bookedDate := group.chargeDate
  chargeDate := some group.chargeDate
  amount
  currency := account.currency
  description := JsText.ofString ("Card payment " ++ config.label ++ " " ++ group.chargeDate)
  memo := none
  status := .posted
  installmentNumber := none
  installmentTotal := none
  originalAmount := none
  originalCurrency := none
  category := none
  synthetic := true
  firstSeen := now
  lastSeen := now
  idSchemeVersion := idSchemeVersion
  raw := .obj [("synthetic", .bool true), ("chargeDate", .str group.chargeDate),
    ("rows", .num group.count)]

/-- A group that is emitted: settled, not emitted before, not the remainder of
a partial cycle, and not zero. -/
def isDue (cutoff : IsoDate) (emitted : List IsoDate) (partialUntil : Option IsoDate)
    (group : ChargeGroup) : Bool :=
  !(jsLess cutoff group.chargeDate) && group.chargeDate ∉ emitted &&
    !(partialUntil.any fun bound => bound ≠ "" && jsLess group.chargeDate bound) &&
    !(|host.roundMoney (-group.total)| < 5 / 1000)

/-- One iteration of the loop over the groups. -/
def emitPayment (account : LedgerAccount) (config : CompanyConfig) (now : Instant)
    (cutoff : IsoDate) (emitted : List IsoDate) (partialUntil : Option IsoDate)
    (created : List LedgerTransaction) (group : ChargeGroup) : LedgerM (List LedgerTransaction) :=
  if isDue host cutoff emitted partialUntil group then do
    let amount := host.roundMoney (-group.total)
    let id ← liftExcept (syntheticPaymentId account.company account.accountNumber group.chargeDate)
    insertSyntheticPayment
      { transactionId := id, accountId := account.id, chargeDate := group.chargeDate, amount,
        emittedAt := now }
    return created ++ [paymentRow account config now group id amount]
  else return created

/-- Charge dates before it belong to a cycle the scrapes may have missed. -/
def partialCycleEnd (earliest : Option IsoDate) : Except BridgeError (Option IsoDate) :=
  match earliest with
  | none => .ok none
  | some date => if date = "" then .ok none else (addDays host date partialCycleDays).map some

/-- Compute, persist (in `syntheticPayments`) and return the new synthetic rows
for one account. -/
def computeSyntheticPayments (account : LedgerAccount) (config : CompanyConfig) (today : IsoDate)
    (now : Instant) : LedgerM (List LedgerTransaction) :=
  if !config.synthesizePayments || account.kind ≠ .credit_card then return []
  else do
    let rows ← query fun ledger => postedRows ledger account.id
    let groups := sumByChargeDate rows
    let payments ← listSyntheticPayments account.id
    let cutoff ← liftExcept (addDays host today (-settleDays))
    let earliest ← query fun ledger => earliestBookedDate ledger account.id
    let partialUntil ← liftExcept (partialCycleEnd host earliest)
    let ordered := groups.insertionSort fun a b =>
      (host.localeCompare a.chargeDate b.chargeDate).isLE
    ordered.foldlM
      (emitPayment host account config now cutoff (payments.map (·.chargeDate)) partialUntil) []

/-- The groups that `computeSyntheticPayments` emits, by its own conditions. -/
def dueGroups (account : LedgerAccount) (config : CompanyConfig) (today : IsoDate)
    (ledger : Ledger) : Except BridgeError (List ChargeGroup) :=
  if !config.synthesizePayments || account.kind ≠ .credit_card then .ok []
  else do
    let cutoff ← addDays host today (-settleDays)
    let partialUntil ← partialCycleEnd host (earliestBookedDate ledger account.id)
    let emitted := (ledger.syntheticPayments.rows.filter fun p => p.accountId = account.id).map
      SyntheticPayment.chargeDate
    let ordered := (sumByChargeDate (postedRows ledger account.id)).insertionSort fun a b =>
      (host.localeCompare a.chargeDate b.chargeDate).isLE
    return ordered.filter (isDue host cutoff emitted partialUntil)

/-- The groups depend on the transactions and the payments recorded only. -/
theorem dueGroups_congr {before after : Ledger} (account : LedgerAccount) (config : CompanyConfig)
    (today : IsoDate) (htransactions : after.transactions = before.transactions)
    (hpayments : after.syntheticPayments = before.syntheticPayments) :
    dueGroups host account config today after = dueGroups host account config today before := by
  unfold dueGroups earliestBookedDate postedRows listTransactions
  rw [htransactions, hpayments]

/-- **What the computation comes to**: the queries, and the loop over groups of
which the due ones are emitted. -/
theorem ensures_computeSyntheticPayments_loop {account : LedgerAccount} {config : CompanyConfig}
    {today : IsoDate} {now : Instant} {ledger : Ledger}
    {Q : List LedgerTransaction → Session → Prop} {E : Session → Prop}
    (hstill : ∀ s, s.ledger = ledger → E s)
    (hskip : dueGroups host account config today ledger = .ok [] → ∀ s, s.ledger = ledger → Q [] s)
    (hloop : ∀ cutoff emitted partialUntil (ordered : List ChargeGroup),
      dueGroups host account config today ledger =
        .ok (ordered.filter (isDue host cutoff emitted partialUntil)) →
      Transactional.Ensures (fun s => s.ledger = ledger)
        (ordered.foldlM (emitPayment host account config now cutoff emitted partialUntil) []) Q E) :
    Transactional.Ensures (fun s => s.ledger = ledger)
      (computeSyntheticPayments host account config today now) Q E := by
  unfold computeSyntheticPayments
  by_cases hnone : (!config.synthesizePayments || account.kind ≠ .credit_card) = true
  · rw [if_pos hnone]
    apply Transactional.ensures_pure
    apply hskip
    unfold dueGroups
    rw [if_pos hnone]
  · rw [if_neg hnone]
    refine Transactional.Ensures.bind
      (ensures_query.weaken (fun _ h => h) (fun _ _ h => h) hstill) ?_
    intro rows
    apply Transactional.ensures_of_imp
    rintro rfl
    refine Transactional.Ensures.bind
      (ensures_query.weaken (fun _ h => h) (fun _ _ h => h) hstill) ?_
    intro payments
    apply Transactional.ensures_of_imp
    rintro rfl
    refine Transactional.Ensures.bind
      (ensures_liftExcept.weaken (fun _ h => h) (fun _ _ h => h) hstill) ?_
    intro cutoff
    apply Transactional.ensures_of_imp
    intro hcutoff
    refine Transactional.Ensures.bind
      (ensures_query.weaken (fun _ h => h) (fun _ _ h => h) hstill) ?_
    intro earliest
    apply Transactional.ensures_of_imp
    rintro rfl
    refine Transactional.Ensures.bind
      (ensures_liftExcept.weaken (fun _ h => h) (fun _ _ h => h) hstill) ?_
    intro partialUntil
    apply Transactional.ensures_of_imp
    intro hcycle
    apply hloop
    unfold dueGroups
    rw [if_neg hnone, hcutoff]
    change (partialCycleEnd host _ >>= _) = _
    rw [hcycle]
    rfl

/-- Its run, when the queries are let through. -/
theorem computeSyntheticPayments_queried {account : LedgerAccount} {config : CompanyConfig}
    {today : IsoDate} {now : Instant} {ledger : Ledger} {groups : List ChargeGroup}
    (h : dueGroups host account config today ledger = .ok groups) :
    ∃ cutoff emitted partialUntil count, ∃ ordered : List ChargeGroup,
      ordered.filter (isDue host cutoff emitted partialUntil) = groups ∧
      ∀ faults, computeSyntheticPayments host account config today now
          ⟨ledger, List.replicate count false ++ faults⟩ =
        ordered.foldlM (emitPayment host account config now cutoff emitted partialUntil) []
          ⟨ledger, faults⟩ := by
  unfold dueGroups at h
  unfold computeSyntheticPayments
  by_cases hnone : (!config.synthesizePayments || account.kind ≠ .credit_card) = true
  · rw [if_pos hnone] at h
    rw [if_pos hnone]
    exact ⟨"", [], none, 0, [], Except.ok.inj h, fun _ => rfl⟩
  · rw [if_neg hnone] at h
    rw [if_neg hnone]
    cases hcutoff : addDays host today (-settleDays) with
    | error e =>
        rw [hcutoff] at h
        cases h
    | ok cutoff =>
        rw [hcutoff] at h
        change (partialCycleEnd host _ >>= _) = _ at h
        cases hcycle : partialCycleEnd host (earliestBookedDate ledger account.id) with
        | error e =>
            rw [hcycle] at h
            cases h
        | ok partialUntil =>
            rw [hcycle] at h
            refine ⟨cutoff, _, partialUntil, 3, _, Except.ok.inj h, fun faults => ?_⟩
            rw [Transactional.bind_of_ok (rfl : query _ _ = .ok _ _),
              Transactional.bind_of_ok (rfl : listSyntheticPayments _ _ = .ok _ _),
              Transactional.bind_of_ok (rfl : liftExcept (.ok cutoff) _ = .ok _ _),
              Transactional.bind_of_ok (rfl : query _ _ = .ok _ _)]
            change (liftExcept (partialCycleEnd host (earliestBookedDate ledger account.id)) >>= _)
              _ = _
            rw [hcycle]
            rfl

theorem statementwise_emitPayment (account : LedgerAccount) (config : CompanyConfig) (now : Instant)
    (cutoff : IsoDate) (emitted : List IsoDate) (partialUntil : Option IsoDate)
    (created : List LedgerTransaction) (group : ChargeGroup) :
    Statementwise (emitPayment host account config now cutoff emitted partialUntil created group) := by
  unfold emitPayment
  split_ifs
  · apply Statementwise.bind (statementwise_liftExcept _)
    intro id
    exact (statementwise_statement _).bind fun _ => statementwise_pure _
  · exact statementwise_pure _

theorem statementwise_computeSyntheticPayments (account : LedgerAccount) (config : CompanyConfig)
    (today : IsoDate) (now : Instant) :
    Statementwise (computeSyntheticPayments host account config today now) := by
  unfold computeSyntheticPayments
  split_ifs
  · exact statementwise_pure _
  · apply Statementwise.bind (statementwise_query _)
    intro rows
    apply Statementwise.bind (statementwise_query _)
    intro payments
    apply Statementwise.bind (statementwise_liftExcept _)
    intro cutoff
    apply Statementwise.bind (statementwise_query _)
    intro earliest
    apply Statementwise.bind (statementwise_liftExcept _)
    intro partialUntil
    exact statementwise_foldlM (statementwise_emitPayment host account config now cutoff _ partialUntil) _ _

/-- The payments are computed from queries and recorded one by one: what the
queries and the insertions keep, the computation keeps. -/
theorem keeps_computeSyntheticPayments {R : Session → Session → Prop} (hrefl : ∀ s, R s s)
    (htrans : ∀ s₁ s₂ s₃, R s₁ s₂ → R s₂ s₃ → R s₁ s₃)
    (hquery : ∀ {α : Type} (read : Ledger → α), Transactional.Keeps R (query read))
    (hinsert : ∀ payment, Transactional.Keeps R (insertSyntheticPayment payment))
    (account : LedgerAccount) (config : CompanyConfig) (today : IsoDate) (now : Instant) :
    Transactional.Keeps R (computeSyntheticPayments host account config today now) := by
  have hpure : ∀ {α : Type} (a : α), Transactional.Keeps R (pure a : LedgerM α) :=
    Transactional.keeps_pure hrefl
  have hlift : ∀ {α : Type} (result : Except BridgeError α),
      Transactional.Keeps R (liftExcept result) := by
    intro α result s
    unfold liftExcept
    split
    · exact hrefl s
    · exact hrefl s
  have hemit : ∀ cutoff emitted partialUntil created group, Transactional.Keeps R
      (emitPayment host account config now cutoff emitted partialUntil created group) := by
    intro cutoff emitted partialUntil created group
    unfold emitPayment
    split_ifs
    · apply Transactional.Keeps.bind htrans (hlift _)
      intro id
      exact Transactional.Keeps.bind htrans (hinsert _) fun _ => hpure _
    · exact hpure _
  unfold computeSyntheticPayments
  split_ifs
  · exact hpure _
  · apply Transactional.Keeps.bind htrans (hquery _)
    intro rows
    apply Transactional.Keeps.bind htrans (hquery _)
    intro payments
    apply Transactional.Keeps.bind htrans (hlift _)
    intro cutoff
    apply Transactional.Keeps.bind htrans (hquery _)
    intro earliest
    apply Transactional.Keeps.bind htrans (hlift _)
    intro partialUntil
    exact Transactional.keeps_foldlM hrefl htrans _
      (fun created group _ => hemit cutoff _ partialUntil created group) _

/-- The payments are recorded in `synthetic_payments`; nothing else is
written. -/
theorem frames_computeSyntheticPayments {γ : Type} {view : Ledger → γ}
    (hpayments : ∀ ledger syntheticPayments, view { ledger with syntheticPayments } = view ledger)
    (account : LedgerAccount) (config : CompanyConfig) (today : IsoDate) (now : Instant) :
    Frames view (computeSyntheticPayments host account config today now) := by
  apply keeps_computeSyntheticPayments (R := fun s s' : Session => view s'.ledger = view s.ledger)
    host (fun _ => rfl) (fun _ _ _ h₁ h₂ => h₂.trans h₁) frames_query
  intro payment
  apply frames_statement
  intro ledger ledger' h
  split_ifs at h
  rw [← Except.ok.inj h]
  exact hpayments _ _

end

end SimplefinBridge
