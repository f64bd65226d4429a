import SimplefinBridge.AtomicIngestion
import SimplefinBridge.DateTexts
import SimplefinBridge.Library.Sorting

/-!
# Windows of the feed

The bounds of a query are epochs, the rows carry calendar dates.  The code turns
the bounds into dates and compares texts; `jsLess_windowDate` says that this is
the comparison of the bound with 12:00 UTC of the date, so a row is served by
exactly the windows that its posted epoch, or the moment it was first seen or
seen posted, lies in (`transactionsFor_exact`).
-/

namespace SimplefinBridge

open CivilDays Sorting

/-! ## Dates and bounds -/

/-- 12:00 UTC of a day, in epoch seconds. -/
def noonEpoch (day : CivilDate) : Int := day.dayNumber * 86400 + 43200

theorem windowDay_bounds (epoch : Epoch) : 0 ≤ windowDay epoch ∧ windowDay epoch ≤ 2932896 := by
  obtain ⟨seconds, hseconds⟩ := epoch
  unfold maxEpochSeconds at hseconds
  unfold windowDay noonOffset secondsPerDay
  dsimp only
  omega

/-- **A date lies before a bound** exactly when its noon does. -/
theorem jsLess_windowDate {day : CivilDate} (hday : DayFrom 0 day) (epoch : Epoch) :
    jsLess day.text (windowStartDate epoch) = true ↔ noonEpoch day < epoch.val := by
  obtain ⟨hlow, hhigh⟩ := windowDay_bounds epoch
  obtain ⟨-, hnumber⟩ := CivilDate.ofDayNumber_spec (windowDay epoch)
  have hzero : (⟨0, 1, 1⟩ : CivilDate).dayNumber = -719528 := by decide
  have hlast : (⟨9999, 12, 31⟩ : CivilDate).dayNumber = 2932896 := by decide
  have hwindow : DayFrom 0 (CivilDate.ofDayNumber (windowDay epoch)) :=
    dayFrom_ofDayNumber (by omega) (by omega)
  have htext : windowStartDate epoch = (CivilDate.ofDayNumber (windowDay epoch)).text := by
    have hindex := dayIndexToDate_windowDay epoch
    rw [← hnumber, dayIndexToDate_day hwindow] at hindex
    exact (Except.ok.inj hindex).symm
  rw [htext, jsLess_date hday hwindow, hnumber]
  unfold noonEpoch windowDay noonOffset secondsPerDay
  omega

/-- `posted` of a date. -/
theorem calendarDateToPostedEpoch_date (host : Host) {day : CivilDate} (h : DayFrom 100 day) :
    calendarDateToPostedEpoch host day.text = some (noonEpoch day) := by
  have hfirst := (h.mono (show (0 : Int) ≤ 100 by decide)).first_dayNumber_le
  have hlast := h.le_last_dayNumber
  have hzero : (⟨0, 1, 1⟩ : CivilDate).dayNumber = -719528 := by decide
  have hend : (⟨9999, 12, 31⟩ : CivilDate).dayNumber = 2932896 := by decide
  have hday := dateUtcDay_date h 0
  rw [Int.cast_zero, add_zero, add_zero] at hday
  unfold calendarDateToPostedEpoch
  rw [dateParts_date host (h.mono (by decide))]
  change noonOfDay (dateUtcDay day.year ((day.month : ℚ) - 1) day.day) = _
  rw [hday]
  unfold noonOfDay
  rw [if_pos (abs_le.mpr ⟨by omega, by omega⟩)]
  rfl

/-! ## Served rows -/

/-- The instant lies in the window of the query, whose start is given. -/
def InstantInWindow (query : AccountsQuery) (seen : Instant) : Prop :=
  (∃ start ∈ query.startDate, (start.val : Int) * 1000 ≤ seen) ∧
    ∀ stop ∈ query.endDate, seen < (stop.val : Int) * 1000

/-- What the window asks of a row with the given date. -/
def WindowAdmits (query : AccountsQuery) (row : LedgerTransaction) (day : CivilDate) : Prop :=
  (∀ stop ∈ query.endDate, noonEpoch day < stop.val) ∧
    ((∀ start ∈ query.startDate, (start.val : Int) ≤ noonEpoch day) ∨
      InstantInWindow query row.firstSeen ∨ ∃ seen ∈ row.postedSeenAt, InstantInWindow query seen)

/-- What the status asks: posted, or pending rows are wanted and the row is
still reported. -/
def StatusAdmits (query : AccountsQuery) (companyConfig : CompanyConfig) (account : LedgerAccount)
    (row : LedgerTransaction) : Prop :=
  row.status = .posted ∨
    (query.pending = true ∧ companyConfig.includePending = true ∧ account.lastSeen ≤ row.lastSeen)

theorem seenInWindow_iff {query : AccountsQuery} {seen : Instant} :
    seenInWindow query seen = true ↔ InstantInWindow query seen := by
  unfold seenInWindow InstantInWindow
  rw [Bool.and_eq_true]
  refine and_congr ?_ ?_
  · cases query.startDate with
    | none => simp
    | some start => simp
  · cases query.endDate with
    | none => simp
    | some stop => simp

theorem firstSeenInWindow_iff {query : AccountsQuery} {row : LedgerTransaction} :
    firstSeenInWindow row query = true ↔
      InstantInWindow query row.firstSeen ∨ ∃ seen ∈ row.postedSeenAt, InstantInWindow query seen := by
  unfold firstSeenInWindow
  rw [Bool.or_eq_true, seenInWindow_iff]
  refine or_congr Iff.rfl ?_
  cases row.postedSeenAt with
  | none => simp
  | some seen => simp [seenInWindow_iff]

/-- The date filters, by epochs. -/
theorem inWindow_iff {query : AccountsQuery} {window : DateWindow} {row : LedgerTransaction}
    {occurrence : TransactionDate} {day : CivilDate} (hwindow : windowDates query = some window)
    (hday : DayFrom 0 day) (hdate : occurrence.date = day.text) :
    inWindow window query row occurrence = true ↔ WindowAdmits query row day := by
  unfold windowDates at hwindow
  split_ifs at hwindow
  obtain rfl := Option.some.inj hwindow
  unfold inWindow WindowAdmits
  rw [Bool.and_eq_true, Bool.or_eq_true, hdate, firstSeenInWindow_iff]
  refine and_congr ?_ (or_congr ?_ Iff.rfl)
  · cases query.endDate with
    | none => simp
    | some stop =>
        have hstop := jsLess_windowDate hday stop
        simpa [windowEndDate] using hstop
  · cases query.startDate with
    | none => simp
    | some start =>
        have hstart := jsLess_windowDate hday start
        rw [← not_iff_not] at hstart
        simpa using hstart

section
variable {host : Host} {config : Config} {account : LedgerAccount} {companyConfig : CompanyConfig}
  {query : AccountsQuery} {ledger : Ledger}

/-- The status filters. -/
theorem status_iff {row : LedgerTransaction} :
    (TransactionQuery.admits { accountIds := some [account.id]
                               includePending := query.pending && companyConfig.includePending
                               includeSynthetic := true } row = true ∧
        isCurrentPending row account = true) ↔
      row.accountId = account.id ∧ StatusAdmits query companyConfig account row := by
  unfold TransactionQuery.admits isCurrentPending StatusAdmits
  cases hstatus : row.status with
  | posted => simp
  | pending => simp [and_assoc]

/-- **The rows served**: of the account, with an admitted status, in the
window. -/
theorem mem_servedRows {window : DateWindow} (hwindow : windowDates query = some window)
    (hbalances : query.balancesOnly = false) {d : LedgerTransaction × TransactionDate} :
    d ∈ servedRows host config account companyConfig query ledger ↔
      d.1 ∈ ledger.transactions.rows ∧ d.1.accountId = account.id ∧
        StatusAdmits query companyConfig account d.1 ∧
        d.2 = transactionDate host d.1 config.timezone (account.kind = .credit_card) ∧
        inWindow window query d.1 d.2 = true := by
  unfold servedRows
  rw [hwindow]
  dsimp only
  rw [hbalances, if_neg Bool.false_ne_true, List.mem_insertionSort, List.mem_filter, List.mem_map]
  constructor
  · rintro ⟨⟨row, hrow, rfl⟩, hin⟩
    obtain ⟨hlisted, hcurrent⟩ := List.mem_filter.mp hrow
    obtain ⟨hstored, hadmits⟩ := mem_listTransactions.mp hlisted
    obtain ⟨haccount, hstatus⟩ := status_iff.mp ⟨hadmits, hcurrent⟩
    exact ⟨hstored, haccount, hstatus, rfl, hin⟩
  · rintro ⟨hstored, haccount, hstatus, hdate, hin⟩
    obtain ⟨hadmits, hcurrent⟩ := status_iff.mpr ⟨haccount, hstatus⟩
    refine ⟨⟨d.1, List.mem_filter.mpr ⟨mem_listTransactions.mpr ⟨hstored, hadmits⟩, hcurrent⟩, ?_⟩,
      hin⟩
    rw [← hdate]

end

/-! ## Order and repetition -/

/-- `localeCompare` orders calendar dates by time. -/
def OrdersDates (host : Host) : Prop :=
  ∀ a b : CivilDate, DayFrom 0 a → DayFrom 0 b →
    host.localeCompare a.text b.text = compare a.dayNumber b.dayNumber

/-- The earlier day first, then the smaller id. -/
def ServedBefore (host : Host) (a b : LedgerTransaction × TransactionDate) : Prop :=
  ∀ day day' : CivilDate, DayFrom 0 day → DayFrom 0 day' → a.2.date = day.text →
    b.2.date = day'.text → day.dayNumber < day'.dayNumber ∨
      day.dayNumber = day'.dayNumber ∧ (host.localeCompare a.1.id b.1.id).isLE = true

section
variable {host : Host} {config : Config} {account : LedgerAccount} {companyConfig : CompanyConfig}
  {query : AccountsQuery} {ledger : Ledger}

theorem servedBefore_of_occurrenceBefore (horder : OrdersDates host)
    {a b : LedgerTransaction × TransactionDate} (h : occurrenceBefore host a b = true) :
    ServedBefore host a b := by
  intro day day' hday hday' hdate hdate'
  unfold occurrenceBefore at h
  rw [hdate, hdate', horder day day' hday hday'] at h
  cases hcompare : compare day.dayNumber day'.dayNumber with
  | lt => exact .inl (compare_lt_iff_lt.mp hcompare)
  | eq =>
      rw [hcompare] at h
      exact .inr ⟨compare_eq_iff_eq.mp hcompare, h⟩
  | gt =>
      rw [hcompare] at h
      cases h

theorem servedRows_sorted (horder : OrdersDates host) :
    (servedRows host config account companyConfig query ledger).Pairwise (ServedBefore host) := by
  have hdate := transCmp_key host.localeCompare fun d : LedgerTransaction × TransactionDate => d.2.date
  have hid := transCmp_key host.localeCompare fun d : LedgerTransaction × TransactionDate => d.1.id
  have hboth := transCmp_then (fun a b : LedgerTransaction × TransactionDate =>
    host.localeCompare a.2.date b.2.date) fun a b => host.localeCompare a.1.id b.1.id
  unfold servedRows
  cases windowDates query with
  | none => exact List.Pairwise.nil
  | some window =>
      dsimp only
      split_ifs
      · exact List.Pairwise.nil
      · exact (pairwise_insertionSort_isLE _ _).imp fun h => servedBefore_of_occurrenceBefore horder h

/-- A stored row is served at most once. -/
theorem servedRows_nodup :
    ((servedRows host config account companyConfig query ledger).map (·.1.id)).Nodup := by
  unfold servedRows
  cases windowDates query with
  | none => exact List.nodup_nil
  | some window =>
      dsimp only
      split_ifs
      · exact List.nodup_nil
      · rw [((List.perm_insertionSort _ _).map _).nodup_iff]
        apply List.Nodup.sublist (List.filter_sublist.map _)
        rw [List.map_map]
        apply List.Nodup.sublist (List.filter_sublist.map _)
        unfold listTransactions
        rw [((List.perm_insertionSort _ _).map _).nodup_iff]
        exact ledger.transactions.nodup.sublist (List.filter_sublist.map _)

end

/-- **Windows are exact.**  A stored row of the account with a date of the years
100 to 9999 is served exactly when its status is admitted and the noon of its
date, or the moment it was first seen or seen posted, lies in the window; a
posted row carries that noon; no row is served twice; and rows come by date and
id. -/
theorem transactionsFor_exact (host : Host) (horder : OrdersDates host) (config : Config)
    (account : LedgerAccount) (companyConfig : CompanyConfig) (query : AccountsQuery)
    (ledger : Ledger) (currency : String)
    (hbounded : query.startDate.isSome = true ∨ query.endDate.isSome = true)
    (hbalances : query.balancesOnly = false) :
    (∀ row ∈ ledger.transactions.rows, row.accountId = account.id → ∀ day, DayFrom 100 day →
      (transactionDate host row config.timezone (account.kind = .credit_card)).date = day.text →
        ((∃ served ∈ transactionsFor host config account currency companyConfig query ledger,
            served.id = row.id) ↔
          StatusAdmits query companyConfig account row ∧ WindowAdmits query row day) ∧
        ∀ served ∈ transactionsFor host config account currency companyConfig query ledger,
          served.id = row.id → row.status = .posted → served.posted = some (noonEpoch day)) ∧
      ((transactionsFor host config account currency companyConfig query ledger).map
        SimpleFinTransaction.id).Nodup ∧
      transactionsFor host config account currency companyConfig query ledger =
        (servedRows host config account companyConfig query ledger).map
          (fun d => toSimpleFinTransaction host d.1 currency d.2) ∧
      (servedRows host config account companyConfig query ledger).Pairwise (ServedBefore host) := by
  have hwindow : ∃ window, windowDates query = some window := by
    unfold windowDates
    rw [if_neg]
    · exact ⟨_, rfl⟩
    · rw [Bool.and_eq_true, Option.isNone_iff_eq_none, Option.isNone_iff_eq_none]
      rintro ⟨hstart, hend⟩
      rw [hstart, hend] at hbounded
      rcases hbounded with h | h <;> cases h
  obtain ⟨window, hwindow⟩ := hwindow
  have hids : (transactionsFor host config account currency companyConfig query ledger).map
      SimpleFinTransaction.id =
        (servedRows host config account companyConfig query ledger).map (·.1.id) := by
    unfold transactionsFor
    rw [List.map_map]
    rfl
  refine ⟨?_, by rw [hids]; exact servedRows_nodup, rfl, servedRows_sorted horder⟩
  intro row hrow haccount day hday hdate
  -- the served transaction with the row's id is made from the row
  have hserved : ∀ d ∈ servedRows host config account companyConfig query ledger,
      d.1.id = row.id → d = (row,
        transactionDate host row config.timezone (account.kind = .credit_card)) := by
    intro d hd hid
    obtain ⟨hstored, -, -, hoccurrence, -⟩ := (mem_servedRows hwindow hbalances).mp hd
    have hsame : d.1 = row := KeyedTable.eq_of_key_eq hstored hrow hid
    rw [hsame] at hoccurrence
    exact Prod.ext hsame hoccurrence
  constructor
  · constructor
    · rintro ⟨served, hmem, hid⟩
      obtain ⟨d, hd, rfl⟩ := List.mem_map.mp hmem
      have hrowOf := hserved d hd hid
      obtain ⟨-, -, hstatus, -, hin⟩ := (mem_servedRows hwindow hbalances).mp hd
      rw [hrowOf] at hstatus hin
      exact ⟨hstatus, (inWindow_iff hwindow (hday.mono (by decide)) hdate).mp hin⟩
    · rintro ⟨hstatus, hin⟩
      have hd : (row, transactionDate host row config.timezone (account.kind = .credit_card)) ∈
          servedRows host config account companyConfig query ledger :=
        (mem_servedRows hwindow hbalances).mpr ⟨hrow, haccount, hstatus, rfl,
          (inWindow_iff hwindow (hday.mono (by decide)) hdate).mpr hin⟩
      exact ⟨_, List.mem_map_of_mem hd, rfl⟩
  · intro served hmem hid hposted
    obtain ⟨d, hd, rfl⟩ := List.mem_map.mp hmem
    rw [hserved d hd hid]
    unfold toSimpleFinTransaction
    dsimp only
    rw [hposted, if_neg (by decide), hdate, calendarDateToPostedEpoch_date host hday]

/-- The units of a text decide its order. -/
theorem chars_lt_iff (cs ds : List Char) : cs < ds ↔ cs.map Char.toNat < ds.map Char.toNat := by
  induction cs generalizing ds with
  | nil =>
      cases ds with
      | nil => simp
      | cons d ds => simp
  | cons c cs ih =>
      cases ds with
      | nil => simp
      | cons d ds =>
          rw [List.map_cons, List.map_cons, List.cons_lt_cons_iff, List.cons_lt_cons_iff, ih,
            Char.toNat_inj]
          exact Iff.rfl

/-- Texts are compared by their units. -/
theorem localeCompare_asciiHost (s t : String) :
    asciiHost.localeCompare s t = compareOfLessAndEq s t := rfl

theorem ordersDates_asciiHost : OrdersDates asciiHost := by
  intro a b ha hb
  have hless : ∀ {c d : CivilDate}, DayFrom 0 c → DayFrom 0 d →
      (c.text < d.text ↔ c.dayNumber < d.dayNumber) := by
    intro c d hc hd
    rw [← jsLess_date hc hd]
    unfold jsLess
    rw [decide_eq_true_eq, jsUnits_date, jsUnits_date, String.lt_iff]
    unfold CivilDate.text CivilDate.units
    rw [String.toList_ofList, String.toList_ofList]
    exact chars_lt_iff _ _
  have hequal : a.text = b.text ↔ a.dayNumber = b.dayNumber := by
    rw [date_text_inj ha hb, CivilDate.dayNumber_inj ha.valid hb.valid]
  rw [localeCompare_asciiHost]
  unfold compareOfLessAndEq
  by_cases hlt : a.dayNumber < b.dayNumber
  · rw [if_pos ((hless ha hb).mpr hlt), compare_lt_iff_lt.mpr hlt]
  · rw [if_neg fun h => hlt ((hless ha hb).mp h)]
    by_cases heq : a.dayNumber = b.dayNumber
    · rw [if_pos (hequal.mpr heq), compare_eq_iff_eq.mpr heq]
    · rw [if_neg fun h => heq (hequal.mp h), eq_comm, compare_gt_iff_gt]
      omega

/-- The archived instalment is served since the epoch. -/
theorem transactionsFor_exact_fridge :
    (∃ served ∈ transactionsFor asciiHost calConfig calAccount "ILS" calCompany sinceTheEpoch
        twiceArchived, served.id = archivedFridge.id) ↔
      StatusAdmits sinceTheEpoch calCompany calAccount archivedFridge ∧
        WindowAdmits sinceTheEpoch archivedFridge ⟨2026, 1, 5⟩ :=
  ((transactionsFor_exact asciiHost ordersDates_asciiHost calConfig calAccount calCompany
    sinceTheEpoch twiceArchived "ILS" (.inl rfl) rfl).1 archivedFridge (by decide +kernel) rfl
      ⟨2026, 1, 5⟩ (by decide) (by decide +kernel)).1

end SimplefinBridge
