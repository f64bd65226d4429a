import SimplefinBridge.DateTexts
import SimplefinBridge.PaymentsInStep
import SimplefinBridge.Library.Pairings

/-!
# The amounts of synthetic payments

A payment is computed from the group of its charge date, in which the amounts
of all posted rows are added up, whatever their currency and sign.  For amounts
in exact cents it is the payment of the cycle exactly when the rows in other
currencies cancel out and the sum is a debt (`synthetic_payments_iff`).
-/

namespace SimplefinBridge

open Transactional CivilDays

/-! ## Groups -/

/-- The rows of a charge date. -/
def chargedOn (date : IsoDate) (rows : List LedgerTransaction) : List LedgerTransaction :=
  rows.filter fun row => row.chargeDate = some date

/-- The sum of amounts. -/
def totalAmount (rows : List LedgerTransaction) : ℚ := (rows.map (·.amount)).sum

theorem totalAmount_append (rows rows' : List LedgerTransaction) :
    totalAmount (rows ++ rows') = totalAmount rows + totalAmount rows' := by
  unfold totalAmount
  rw [List.map_append, List.sum_append]

/-- What one row does to the groups: it adds to the group of its charge date,
or opens it. -/
theorem mem_addToGroups {groups : List ChargeGroup} {row : LedgerTransaction} {group : ChargeGroup}
    (hdated : ∀ g ∈ groups, g.chargeDate ≠ "") (h : group ∈ addToGroups groups row) :
    group.chargeDate ≠ "" ∧ ((row.chargeDate ≠ some group.chargeDate ∧ group ∈ groups) ∨
      (row.chargeDate = some group.chargeDate ∧
        ((∃ old ∈ groups, old.chargeDate = group.chargeDate ∧
            group.total = old.total + row.amount) ∨
          (group.chargeDate ∉ groups.map (·.chargeDate) ∧ group.total = row.amount)))) := by
  unfold addToGroups at h
  cases hdate : row.chargeDate with
  | none =>
      rw [hdate] at h
      exact ⟨hdated group h, .inl ⟨nofun, h⟩⟩
  | some date =>
      rw [hdate] at h
      dsimp only at h
      by_cases hempty : date = ""
      · rw [if_pos hempty] at h
        refine ⟨hdated group h, .inl ⟨?_, h⟩⟩
        intro heq
        exact hdated group h ((Option.some.inj heq).symm.trans hempty)
      · rw [if_neg hempty] at h
        by_cases hknown : groups.any (·.chargeDate = date) = true
        · rw [if_pos hknown] at h
          obtain ⟨old, hold, hgroup⟩ := List.mem_map.mp h
          by_cases hsame : old.chargeDate = date
          · rw [if_pos hsame] at hgroup
            rw [← hgroup]
            exact ⟨hdated old hold, .inr ⟨by rw [← hsame], .inl ⟨old, hold, rfl, rfl⟩⟩⟩
          · rw [if_neg hsame] at hgroup
            rw [← hgroup]
            exact ⟨hdated old hold, .inl ⟨fun heq => hsame (Option.some.inj heq).symm, hold⟩⟩
        · rw [if_neg hknown] at h
          have hfresh : ∀ old ∈ groups, old.chargeDate ≠ date := by
            intro old hold hsame
            apply hknown
            rw [List.any_eq_true]
            exact ⟨old, hold, decide_eq_true hsame⟩
          rcases List.mem_append.mp h with hold | hnew
          · exact ⟨hdated group hold,
              .inl ⟨fun heq => hfresh group hold (Option.some.inj heq).symm, hold⟩⟩
          · obtain rfl := List.mem_singleton.mp hnew
            refine ⟨hempty, .inr ⟨rfl, .inr ⟨?_, rfl⟩⟩⟩
            intro hmem
            obtain ⟨old, hold, hsame⟩ := List.mem_map.mp hmem
            exact hfresh old hold hsame

/-- A row's charge date has a group afterwards. -/
theorem chargeDate_mem_addToGroups {groups : List ChargeGroup} {row : LedgerTransaction}
    {date : IsoDate} (hdate : date ≠ "")
    (h : row.chargeDate = some date ∨ date ∈ groups.map (·.chargeDate)) :
    date ∈ (addToGroups groups row).map (·.chargeDate) := by
  rcases map_chargeDate_addToGroups groups row with hsame | ⟨new, hnew, -, hadded⟩
  · rw [hsame]
    rcases h with hrow | hold
    · by_contra hfresh
      unfold addToGroups at hsame
      rw [hrow] at hsame
      dsimp only at hsame
      rw [if_neg hdate] at hsame
      split_ifs at hsame with hknown
      · obtain ⟨group, hgroup, hmatch⟩ := List.any_eq_true.mp hknown
        exact hfresh (List.mem_map.mpr ⟨group, hgroup, of_decide_eq_true hmatch⟩)
      · have hlength := congrArg List.length hsame
        simp at hlength
    · exact hold
  · rw [hadded]
    rcases h with hrow | hold
    · rw [hrow] at hnew
      obtain rfl := Option.some.inj hnew
      exact List.mem_append_right _ (List.mem_singleton_self _)
    · exact List.mem_append_left _ hold

/-- **The groups** add up the rows of their charge dates, and every charge date
has one. -/
theorem sumByChargeDate_total (rows : List LedgerTransaction) :
    (∀ group ∈ sumByChargeDate rows, group.chargeDate ≠ "" ∧
        group.total = totalAmount (chargedOn group.chargeDate rows)) ∧
      ∀ date ≠ "", (∃ row ∈ rows, row.chargeDate = some date) →
        date ∈ (sumByChargeDate rows).map (·.chargeDate) := by
  unfold sumByChargeDate
  induction rows using List.reverseRecOn with
  | nil => exact ⟨fun _ h => absurd h List.not_mem_nil, fun _ _ ⟨_, h, _⟩ => absurd h List.not_mem_nil⟩
  | append_singleton rows row ih =>
      obtain ⟨htotals, hdates⟩ := ih
      rw [List.foldl_append, List.foldl_cons, List.foldl_nil]
      have hsplit : ∀ date, chargedOn date (rows ++ [row]) =
          chargedOn date rows ++ chargedOn date [row] := fun date => List.filter_append ..
      constructor
      · intro group hgroup
        obtain ⟨hne, hcases⟩ := mem_addToGroups (fun g hg => (htotals g hg).1) hgroup
        refine ⟨hne, ?_⟩
        rw [hsplit, totalAmount_append]
        rcases hcases with ⟨hother, hold⟩ | ⟨hsame, ⟨old, hold, hdate, htotal⟩ | ⟨hfresh, htotal⟩⟩
        · have hnone : chargedOn group.chargeDate [row] = [] := by simp [chargedOn, hother]
          rw [hnone, (htotals group hold).2]
          exact (add_zero _).symm
        · have hone : chargedOn group.chargeDate [row] = [row] := by simp [chargedOn, hsame]
          rw [hone, htotal, (htotals old hold).2, hdate]
          simp [totalAmount]
        · have hone : chargedOn group.chargeDate [row] = [row] := by simp [chargedOn, hsame]
          have hnone : chargedOn group.chargeDate rows = [] := by
            apply List.filter_eq_nil_iff.mpr
            intro other hother hdate
            exact hfresh (hdates _ hne ⟨other, hother, of_decide_eq_true hdate⟩)
          rw [hone, hnone, htotal]
          simp [totalAmount]
      · rintro date hne ⟨other, hother, hdate⟩
        apply chargeDate_mem_addToGroups hne
        rcases List.mem_append.mp hother with hold | hnew
        · exact .inr (hdates date hne ⟨other, hold, hdate⟩)
        · rw [List.mem_singleton.mp hnew] at hdate
          exact .inl hdate

/-! ## Due groups -/

section
variable (host : Host)

/-- The row emitted for a group. -/
def IsPaymentRow (account : LedgerAccount) (config : CompanyConfig) (now : Instant)
    (group : ChargeGroup) (row : LedgerTransaction) : Prop :=
  ∃ id, syntheticPaymentId account.company account.accountNumber group.chargeDate = .ok id ∧
    row = paymentRow account config now group id (host.roundMoney (-group.total))

/-- The record of a group. -/
def Records (account : LedgerAccount) (group : ChargeGroup) (payment : SyntheticPayment) : Prop :=
  payment.accountId = account.id ∧ payment.chargeDate = group.chargeDate ∧
    payment.amount = host.roundMoney (-group.total)

/-- Only records of the groups have been added. -/
def RecordsAdded (account : LedgerAccount) (groups : List ChargeGroup) (before after : Ledger) :
    Prop :=
  ∀ payment ∈ after.syntheticPayments.rows,
    payment ∈ before.syntheticPayments.rows ∨ ∃ group ∈ groups, Records host account group payment

variable {host} {account : LedgerAccount} {config : CompanyConfig} {now : Instant}

/-- A record of a due group is inserted, or nothing is. -/
theorem ensures_insertRecord {ledger : Ledger} {groups : List ChargeGroup} {group : ChargeGroup}
    {id : String} (hgroup : group ∈ groups) :
    Ensures (fun s : Session => RecordsAdded host account groups ledger s.ledger)
      (insertSyntheticPayment
        { transactionId := id, accountId := account.id, chargeDate := group.chargeDate,
          amount := host.roundMoney (-group.total), emittedAt := now })
      (fun _ s => RecordsAdded host account groups ledger s.ledger)
      (fun s => RecordsAdded host account groups ledger s.ledger) := by
  intro s hbefore
  cases hinsert : insertSyntheticPayment
      { transactionId := id, accountId := account.id, chargeDate := group.chargeDate,
        amount := host.roundMoney (-group.total), emittedAt := now } s with
  | ok u s' =>
      change RecordsAdded host account groups ledger s'.ledger
      rw [(insertSyntheticPayment_ok hinsert).2]
      intro payment hpayment
      rcases KeyedTable.mem_put.mp hpayment with rfl | ⟨hold, -⟩
      · exact .inr ⟨group, hgroup, rfl, rfl, rfl⟩
      · exact hbefore payment hold
  | error e s' =>
      change RecordsAdded host account groups ledger s'.ledger
      rw [statement_error hinsert]
      exact hbefore

/-- **One group** of the loop: a due one is recorded and gets a row. -/
theorem ensures_emitPayment {ledger : Ledger} {cutoff : IsoDate} {emitted : List IsoDate}
    {partialUntil : Option IsoDate} {groups done : List ChargeGroup}
    {created : List LedgerTransaction} {group : ChargeGroup}
    (hgroup : isDue host cutoff emitted partialUntil group = true → group ∈ groups) :
    Ensures (fun s => List.Forall₂ (IsPaymentRow host account config now)
        (done.filter (isDue host cutoff emitted partialUntil)) created ∧
          RecordsAdded host account groups ledger s.ledger)
      (emitPayment host account config now cutoff emitted partialUntil created group)
      (fun created' s => List.Forall₂ (IsPaymentRow host account config now)
        ((done ++ [group]).filter (isDue host cutoff emitted partialUntil)) created' ∧
          RecordsAdded host account groups ledger s.ledger)
      (fun s => RecordsAdded host account groups ledger s.ledger) := by
  apply ensures_of_imp
  intro hrows
  unfold emitPayment
  by_cases hdue : isDue host cutoff emitted partialUntil group = true
  · rw [if_pos hdue]
    refine Ensures.bind ensures_liftExcept ?_
    intro id
    apply ensures_of_imp
    intro hid
    refine Ensures.bind (ensures_insertRecord (hgroup hdue)) ?_
    intro u
    apply ensures_pure
    intro s hafter
    refine ⟨?_, hafter⟩
    rw [List.filter_append, List.filter_cons_of_pos hdue, List.filter_nil]
    exact List.rel_append hrows (.cons ⟨id, hid, rfl⟩ .nil)
  · rw [if_neg hdue]
    apply ensures_pure
    intro s hafter
    rw [List.filter_append, List.filter_cons_of_neg hdue, List.filter_nil, List.append_nil]
    exact ⟨hrows, hafter⟩

/-- **What the computation does**, returned from or stopped: it records and
returns rows for due groups, and on return for all of them. -/
theorem ensures_computeSyntheticPayments (host : Host) (account : LedgerAccount)
    (config : CompanyConfig) (today : IsoDate) (now : Instant) (ledger : Ledger) :
    Ensures (fun s => s.ledger = ledger) (computeSyntheticPayments host account config today now)
      (fun created s => ∃ groups, dueGroups host account config today ledger = .ok groups ∧
        List.Forall₂ (IsPaymentRow host account config now) groups created ∧
        RecordsAdded host account groups ledger s.ledger)
      (fun s => ∃ groups, (dueGroups host account config today ledger = .ok groups ∨ groups = []) ∧
        RecordsAdded host account groups ledger s.ledger) := by
  have hstill : ∀ s : Session, s.ledger = ledger → ∃ groups,
      (dueGroups host account config today ledger = .ok groups ∨ groups = []) ∧
        RecordsAdded host account groups ledger s.ledger := by
    rintro s rfl
    exact ⟨[], .inr rfl, fun _ h => .inl h⟩
  apply ensures_computeSyntheticPayments_loop host hstill
  · rintro hnone s rfl
    exact ⟨[], hnone, .nil, fun _ h => .inl h⟩
  · intro cutoff emitted partialUntil ordered hgroups
    have hloop : Ensures
        (fun s => List.Forall₂ (IsPaymentRow host account config now)
            (([] : List ChargeGroup).filter (isDue host cutoff emitted partialUntil)) [] ∧
          RecordsAdded host account (ordered.filter (isDue host cutoff emitted partialUntil)) ledger s.ledger)
        (ordered.foldlM (emitPayment host account config now cutoff emitted partialUntil) [])
        (fun created s => List.Forall₂ (IsPaymentRow host account config now)
            (ordered.filter (isDue host cutoff emitted partialUntil)) created ∧
          RecordsAdded host account (ordered.filter (isDue host cutoff emitted partialUntil)) ledger s.ledger)
        (fun s => RecordsAdded host account (ordered.filter (isDue host cutoff emitted partialUntil)) ledger
          s.ledger) := by
      refine ensures_foldlM_history (fun done created (s : Session) =>
        List.Forall₂ (IsPaymentRow host account config now)
            (done.filter (isDue host cutoff emitted partialUntil)) created ∧
          RecordsAdded host account (ordered.filter (isDue host cutoff emitted partialUntil)) ledger s.ledger)
        ?_ []
      intro done group rest created hsplit
      apply ensures_emitPayment
      intro hdue
      rw [hsplit]
      exact List.mem_filter.mpr ⟨List.mem_append_right _ List.mem_cons_self, hdue⟩
    refine hloop.weaken ?_ ?_ ?_
    · rintro s rfl
      exact ⟨.nil, fun _ h => .inl h⟩
    · rintro created s ⟨hrows, hrecords⟩
      exact ⟨_, hgroups, hrows, hrecords⟩
    · intro s hrecords
      exact ⟨_, .inl hgroups, hrecords⟩

end

/-! ## Right payments -/

section
variable {host : Host} {account : LedgerAccount} {config : CompanyConfig} {today : CivilDate}
  {ledger : Ledger}

/-- A payment of what the account's posted rows of the charge date in its
currency come to, for a settled cycle without a record. -/
structure RightPayment (ledger : Ledger) (account : LedgerAccount) (today : CivilDate)
    (date : IsoDate) (amount : ℚ) (currency : String) : Prop where
  positive : 0 < amount
  balances : amount = -totalAmount
    ((chargedOn date (postedRows ledger account.id)).filter fun row => row.currency = currency)
  settled : ∃ day, DayFrom 0 day ∧ day.text = date ∧ day.dayNumber + 2 ≤ today.dayNumber
  unrecorded : ∀ payment ∈ ledger.syntheticPayments.rows, payment.accountId = account.id →
    payment.chargeDate ≠ date

/-- The rows of the charge date come to a debt, and those in other currencies
cancel out.  In the years that `Date.UTC` moves to the twentieth century the
charge date has to be settled by itself. -/
structure Payable (ledger : Ledger) (account : LedgerAccount) (today : CivilDate) (date : IsoDate) :
    Prop where
  debt : totalAmount (chargedOn date (postedRows ledger account.id)) < 0
  cancels : totalAmount ((chargedOn date (postedRows ledger account.id)).filter fun row =>
    row.currency ≠ account.currency) = 0
  early : today.year < 100 →
    ∃ day, DayFrom 0 day ∧ day.text = date ∧ day.dayNumber + 2 ≤ today.dayNumber

/-- Rows in a currency and rows in others. -/
theorem totalAmount_split (currency : String) (rows : List LedgerTransaction) :
    totalAmount rows = totalAmount (rows.filter fun row => row.currency = currency) +
      totalAmount (rows.filter fun row => row.currency ≠ currency) := by
  unfold totalAmount
  induction rows with
  | nil => simp
  | cons row rows ih =>
      by_cases hcurrency : row.currency = currency
      · rw [List.filter_cons_of_pos (by simpa using hcurrency),
          List.filter_cons_of_neg (by simpa using hcurrency), List.map_cons, List.sum_cons, ih,
          List.map_cons, List.sum_cons, add_assoc]
      · rw [List.filter_cons_of_neg (by simpa using hcurrency),
          List.filter_cons_of_pos (by simpa using hcurrency), List.map_cons, List.sum_cons, ih,
          List.map_cons, List.sum_cons]
        ring

/-- An amount in exact cents. -/
def IsCents (amount : ℚ) : Prop := ∃ cents : ℤ, amount = cents / 100

theorem isCents_totalAmount {rows : List LedgerTransaction} (h : ∀ row ∈ rows, IsCents row.amount) :
    IsCents (totalAmount rows) := by
  induction rows with
  | nil => exact ⟨0, by simp [totalAmount]⟩
  | cons row rows ih =>
      obtain ⟨first, hfirst⟩ := h row List.mem_cons_self
      obtain ⟨rest, hrest⟩ := ih fun other hother => h other (List.mem_cons_of_mem _ hother)
      refine ⟨first + rest, ?_⟩
      change row.amount + totalAmount rows = _
      rw [hfirst, hrest]
      push_cast
      ring

/-- Rounding leaves exact cents alone. -/
theorem roundMoney_neg_cents (host : Host) {amount : ℚ} (h : IsCents amount) :
    host.roundMoney (-amount) = -amount := by
  obtain ⟨cents, rfl⟩ := h
  have hneg : -((cents : ℚ) / 100) = ((-cents : ℤ) : ℚ) / 100 := by
    push_cast
    ring
  rw [hneg]
  exact host.roundMoney_cents (-cents)

/-- A due group is one of the groups of the posted rows, for a charge date
without a record and not after the cutoff. -/
theorem mem_dueGroups {today : IsoDate} {groups : List ChargeGroup} {group : ChargeGroup}
    (h : dueGroups host account config today ledger = .ok groups) (hgroup : group ∈ groups) :
    group ∈ sumByChargeDate (postedRows ledger account.id) ∧
      (∀ payment ∈ ledger.syntheticPayments.rows, payment.accountId = account.id →
        payment.chargeDate ≠ group.chargeDate) ∧
      ∃ cutoff, addDays host today (-settleDays) = .ok cutoff ∧
        jsLess cutoff group.chargeDate = false := by
  unfold dueGroups at h
  split_ifs at h with hskip
  · obtain rfl := Except.ok.inj h
    cases hgroup
  · obtain ⟨cutoff, hcutoff, hrest⟩ := except_bind_ok.mp h
    obtain ⟨partialUntil, hcycle, hgroups⟩ := except_bind_ok.mp hrest
    obtain rfl := Except.ok.inj hgroups
    obtain ⟨hmem, hdue⟩ := List.mem_filter.mp hgroup
    unfold isDue at hdue
    simp only [Bool.and_eq_true, Bool.not_eq_true', decide_eq_true_eq] at hdue
    obtain ⟨⟨⟨hsettled, hnew⟩, -⟩, -⟩ := hdue
    refine ⟨(List.mem_insertionSort _).mp hmem, ?_, cutoff, hcutoff, hsettled⟩
    intro payment hpayment haccount hdate
    apply hnew
    rw [← hdate]
    exact List.mem_map_of_mem (List.mem_filter.mpr ⟨hpayment, by simpa using haccount⟩)

/-- From the year 100 on the cutoff is the day two days before. -/
theorem settled_of_cutoff (htoday : DayFrom 100 today) {cutoff : IsoDate}
    (hcutoff : addDays host today.text (-settleDays) = .ok cutoff) {day : CivilDate}
    (hday : DayFrom 0 day) (h : jsLess cutoff day.text = false) :
    day.dayNumber + 2 ≤ today.dayNumber := by
  have hfirst := htoday.first_dayNumber_le
  have hlast := htoday.le_last_dayNumber
  have hhundred : (⟨100, 1, 1⟩ : CivilDate).dayNumber = -683003 := by decide
  have hzero : (⟨0, 1, 1⟩ : CivilDate).dayNumber = -719528 := by decide
  obtain ⟨-, hnumber⟩ := CivilDate.ofDayNumber_spec (today.dayNumber + -settleDays)
  have hsum : DayFrom 0 (CivilDate.ofDayNumber (today.dayNumber + -settleDays)) := by
    apply dayFrom_ofDayNumber
    · unfold settleDays
      omega
    · unfold settleDays
      omega
  rw [addDays_date host htoday hsum hnumber] at hcutoff
  obtain rfl := Except.ok.inj hcutoff
  have hnot : ¬ (CivilDate.ofDayNumber (today.dayNumber + -settleDays)).dayNumber < day.dayNumber := by
    rw [← jsLess_date hsum hday, h]
    exact Bool.false_ne_true
  rw [hnumber] at hnot
  unfold settleDays at hnot
  omega

/-- The dates and amounts of a ledger: calendar dates and exact cents. -/
structure ExactLedger (ledger : Ledger) : Prop where
  dates : ∀ row ∈ ledger.transactions.rows, ∀ date ∈ row.chargeDate,
    ∃ day, DayFrom 0 day ∧ day.text = date
  cents : ∀ row ∈ ledger.transactions.rows, IsCents row.amount

/-- **One payment** is right exactly when its charge date is payable. -/
theorem rightPayment_iff (htoday : DayFrom 0 today) (hexact : ExactLedger ledger)
    {groups : List ChargeGroup} {group : ChargeGroup}
    (hgroups : dueGroups host account config today.text ledger = .ok groups)
    (hgroup : group ∈ groups) :
    RightPayment ledger account today group.chargeDate (host.roundMoney (-group.total)) account.currency ↔
      Payable ledger account today group.chargeDate := by
  obtain ⟨hmem, hnew, cutoff, hcutoff, hless⟩ := mem_dueGroups hgroups hgroup
  have hstored : ∀ row ∈ postedRows ledger account.id, row ∈ ledger.transactions.rows :=
    fun row hrow => (mem_listTransactions.mp hrow).1
  have htotal := ((sumByChargeDate_total _).1 group hmem).2
  have hcents : IsCents (totalAmount (chargedOn group.chargeDate (postedRows ledger account.id))) :=
    isCents_totalAmount fun row hrow => hexact.cents row (hstored row (List.mem_of_mem_filter hrow))
  have hsplit := totalAmount_split account.currency
    (chargedOn group.chargeDate (postedRows ledger account.id))
  obtain ⟨row, hrow, hrowDate⟩ := (sumByChargeDate_spec _).2 _ (List.mem_map_of_mem hmem)
  obtain ⟨day, hday, htext⟩ := hexact.dates row (hstored row hrow) _ hrowDate
  have hsettled : 100 ≤ today.year →
      ∃ day, DayFrom 0 day ∧ day.text = group.chargeDate ∧ day.dayNumber + 2 ≤ today.dayNumber := by
    intro hyear
    rw [← htext] at hless
    exact ⟨day, hday, htext,
      settled_of_cutoff ⟨htoday.valid, hyear, htoday.le_last⟩ hcutoff hday hless⟩
  rw [htotal, roundMoney_neg_cents host hcents]
  constructor
  · rintro ⟨hpositive, hbalances, hearly, -⟩
    exact ⟨by linarith, by linarith, fun _ => hearly⟩
  · rintro ⟨hdebt, hcancels, hearly⟩
    refine ⟨by linarith, by linarith, ?_, hnew⟩
    by_cases hyear : today.year < 100
    · exact hearly hyear
    · exact hsettled (not_lt.mp hyear)

/-- Every charge date that gets a payment is payable. -/
def DueDatesPayable (host : Host) (account : LedgerAccount) (config : CompanyConfig)
    (today : CivilDate) (ledger : Ledger) : Prop :=
  ∀ groups, dueGroups host account config today.text ledger = .ok groups →
    ∀ group ∈ groups, Payable ledger account today group.chargeDate

end

/-- **Payments are right** exactly when every due charge date comes to a debt
in which other currencies cancel out; a computation that stops has then
recorded right payments only. -/
theorem synthetic_payments_iff (host : Host) (account : LedgerAccount) (config : CompanyConfig)
    (today : CivilDate) (now : Instant) (s : Session) (htoday : DayFrom 0 today)
    (hexact : ExactLedger s.ledger) :
    (∀ created s', computeSyntheticPayments host account config today.text now s = .ok created s' →
      ((∀ row ∈ created, ∃ date, row.chargeDate = some date ∧
          RightPayment s.ledger account today date row.amount row.currency) ↔
        DueDatesPayable host account config today s.ledger)) ∧
    (DueDatesPayable host account config today s.ledger →
      ∀ payment ∈ (storeAfter (computeSyntheticPayments host account config today.text now s)
          ).ledger.syntheticPayments.rows,
        payment ∈ s.ledger.syntheticPayments.rows ∨
          RightPayment s.ledger account today payment.chargeDate payment.amount account.currency) := by
  have hensures := ensures_computeSyntheticPayments host account config today.text now s.ledger s rfl
  constructor
  · intro created s' hrun
    rw [hrun] at hensures
    obtain ⟨groups, hgroups, hrows, -⟩ := hensures
    constructor
    · intro hright groups' hgroups' group hgroup
      rw [hgroups] at hgroups'
      obtain rfl := Except.ok.inj hgroups'
      obtain ⟨row, hrow, id, -, rfl⟩ := Pairings.exists_of_left hrows hgroup
      obtain ⟨date, hdate, hpayment⟩ := hright _ hrow
      obtain rfl := Option.some.inj hdate
      exact (rightPayment_iff htoday hexact hgroups hgroup).mp hpayment
    · intro hpayable row hrow
      obtain ⟨group, hgroup, id, -, rfl⟩ := Pairings.exists_of_right hrows hrow
      exact ⟨group.chargeDate, rfl, (rightPayment_iff htoday hexact hgroups hgroup).mpr
        (hpayable groups hgroups group hgroup)⟩
  · intro hpayable payment hpayment
    have hrecords : ∃ groups, (dueGroups host account config today.text s.ledger = .ok groups ∨
        groups = []) ∧ RecordsAdded host account groups s.ledger
          (storeAfter (computeSyntheticPayments host account config today.text now s)).ledger := by
      cases hrun : computeSyntheticPayments host account config today.text now s with
      | ok created s' =>
          rw [hrun] at hensures
          obtain ⟨groups, hgroups, -, hrecords⟩ := hensures
          exact ⟨groups, .inl hgroups, hrecords⟩
      | error e s' =>
          rw [hrun] at hensures
          exact hensures
    obtain ⟨groups, hgroups, hadded⟩ := hrecords
    rcases hadded payment hpayment with hold | ⟨group, hgroup, -, hdate, hamount⟩
    · exact .inl hold
    · rcases hgroups with hgroups | rfl
      · rw [hdate, hamount]
        exact .inr ((rightPayment_iff htoday hexact hgroups hgroup).mpr
          (hpayable groups hgroups group hgroup))
      · cases hgroup

/-! ## Foreign purchases and refunds -/

def cycleLedger (rows : List LedgerTransaction) : Ledger :=
  { emptyLedger with transactions := rows.foldl KeyedTable.put .empty }

/-- A purchase in dollars on the same statement. -/
def dollarSnack : LedgerTransaction :=
  { dinner with id := "visaCal:1234:-:00000000000000aa", amount := -20, currency := "USD" }

/-- A refund on the same statement. -/
def hotelRefund : LedgerTransaction :=
  { dinner with id := "visaCal:1234:-:00000000000000bb", amount := 250 }

/-- The payments computed on 1 March for a card with these rows. -/
def paymentsFor (rows : List LedgerTransaction) : EStateM.Result BridgeError Session (List LedgerTransaction) :=
  computeSyntheticPayments asciiHost calAccount payingCompany "2026-03-01" 0 ⟨cycleLedger rows, []⟩

theorem exactLedger_cycle {rows : List LedgerTransaction}
    (h : ∀ row ∈ rows, row.chargeDate = some "2026-02-10" ∧ IsCents row.amount) :
    ExactLedger (cycleLedger rows) := by
  have hmem : ∀ row ∈ (cycleLedger rows).transactions.rows, row ∈ rows := by
    have hgo : ∀ start : KeyedTable LedgerTransaction LedgerTransaction.id,
        ∀ row ∈ (rows.foldl KeyedTable.put start).rows, row ∈ start.rows ∨ row ∈ rows := by
      clear h
      induction rows with
      | nil => exact fun _ _ h => .inl h
      | cons first rows ih =>
          intro start row hrow
          rcases ih _ row hrow with hput | hrest
          · rcases KeyedTable.mem_put.mp hput with rfl | ⟨hold, -⟩
            · exact .inr List.mem_cons_self
            · exact .inl hold
          · exact .inr (List.mem_cons_of_mem _ hrest)
    intro row hrow
    exact (hgo .empty row hrow).resolve_left List.not_mem_nil
  constructor
  · intro row hrow date hdate
    rw [(h row (hmem row hrow)).1] at hdate
    obtain rfl := Option.some.inj hdate
    exact ⟨⟨2026, 2, 10⟩, by decide, by decide +kernel⟩
  · exact fun row hrow => (h row (hmem row hrow)).2

theorem synthetic_payments_dinner :
    ∃ created s', paymentsFor [dinner] = .ok created s' ∧
      ((∀ row ∈ created, ∃ date, row.chargeDate = some date ∧
          RightPayment (cycleLedger [dinner]) calAccount ⟨2026, 3, 1⟩ date row.amount row.currency) ↔
        DueDatesPayable asciiHost calAccount payingCompany ⟨2026, 3, 1⟩ (cycleLedger [dinner])) := by
  have hiff := synthetic_payments_iff asciiHost calAccount payingCompany ⟨2026, 3, 1⟩ 0
    ⟨cycleLedger [dinner], []⟩ (by decide) (exactLedger_cycle (by
      intro row hrow
      obtain rfl := List.mem_singleton.mp hrow
      exact ⟨rfl, -10000, by norm_num [dinner]⟩))
  have hreturns : (match paymentsFor [dinner] with
    | .ok created _ => created.map (·.amount) == [100]
    | .error _ _ => false) = true := by decide +kernel
  cases hrun : paymentsFor [dinner] with
  | error e s' =>
      rw [hrun] at hreturns
      cases hreturns
  | ok created s' => exact ⟨created, s', rfl, hiff.1 created s' hrun⟩

/-- The payment that was made, if it is the only one. -/
def onlyPayment : EStateM.Result BridgeError Session (List LedgerTransaction) →
    Option (LedgerTransaction × Session)
  | .ok [row] s' => some (row, s')
  | _ => none

theorem onlyPayment_some {result : EStateM.Result BridgeError Session (List LedgerTransaction)}
    {row : LedgerTransaction} {s' : Session} (h : onlyPayment result = some (row, s')) :
    result = .ok [row] s' := by
  unfold onlyPayment at h
  split at h
  · obtain ⟨rfl, rfl⟩ := Prod.mk.inj (Option.some.inj h)
    rfl
  · cases h

/-- A purchase in dollars is paid in shekels, and a refund makes the payment
negative. -/
theorem foreign_and_refund_payments :
    (∃ row s', paymentsFor [dinner, dollarSnack] = .ok [row] s' ∧ row.amount = 120 ∧
      ¬ ∃ date, row.chargeDate = some date ∧
        RightPayment (cycleLedger [dinner, dollarSnack]) calAccount ⟨2026, 3, 1⟩ date row.amount
          row.currency) ∧
      ∃ row s', paymentsFor [dinner, hotelRefund] = .ok [row] s' ∧ row.amount = -150 ∧
        ¬ ∃ date, row.chargeDate = some date ∧
          RightPayment (cycleLedger [dinner, hotelRefund]) calAccount ⟨2026, 3, 1⟩ date row.amount
            row.currency := by
  have hforeign : ((onlyPayment (paymentsFor [dinner, dollarSnack])).any fun made =>
      made.1.amount == 120 && made.1.currency == "ILS" &&
        made.1.chargeDate == some "2026-02-10") = true := by decide +kernel
  have hrefund : ((onlyPayment (paymentsFor [dinner, hotelRefund])).any fun made =>
      made.1.amount == -150) = true := by decide +kernel
  constructor
  · obtain ⟨⟨row, s'⟩, hrun, hmade⟩ := (Option.any_eq_true _ _).mp hforeign
    simp only [Bool.and_eq_true, beq_iff_eq] at hmade
    obtain ⟨⟨hamount, hcurrency⟩, hdate⟩ := hmade
    refine ⟨row, s', onlyPayment_some hrun, hamount, ?_⟩
    rintro ⟨date, hsame, hright⟩
    rw [hdate] at hsame
    obtain rfl := Option.some.inj hsame
    have hbalances := hright.balances
    rw [hamount, hcurrency] at hbalances
    revert hbalances
    decide +kernel
  · obtain ⟨⟨row, s'⟩, hrun, hmade⟩ := (Option.any_eq_true _ _).mp hrefund
    have hamount := eq_of_beq hmade
    refine ⟨row, s', onlyPayment_some hrun, hamount, ?_⟩
    rintro ⟨date, -, hright⟩
    have hpositive := hright.positive
    rw [hamount] at hpositive
    norm_num at hpositive

end SimplefinBridge
