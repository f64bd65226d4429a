import SimplefinBridge.Normalize
import SimplefinBridge.Ordinals

/-!
# Ids across scrapes

Two scrapes of the same setup are compared at a posted source row: the rows of
a scrape that report the same dates, amount, description, memo, identifier and
installments are its copies.  All copies have one base id, so their ids are
given by how many rows with that base id come before each of them.  The two
scrapes agree on the ids of the row exactly when these numbers do
(`keepsIds_iff_numbers`), and they do when no other row has the base id
(`nested_of_onlyCopies`).
-/

namespace SimplefinBridge

open Occurrences Transactional

/-! ## Copies of a source row -/

/-- What a source row reports and no later scrape refreshes. -/
structure ReportedFields where
  date : Option Json
  processedDate : Option Json
  amount : ℚ
  description : Option Json
  memo : Option Json
  identifier : Option Json
  installments : Option Json
  deriving DecidableEq

/-- What the bank reports of a row. -/
def reportedFields (row : TransactionFields) : ReportedFields where
  date := row.raw.field "date"
  processedDate := row.raw.field "processedDate"
  amount := row.amount
  description := row.raw.field "description"
  memo := row.raw.field "memo"
  identifier := row.raw.field "identifier"
  installments := row.raw.field "installments"

/-- The row is posted and reports the given fields in the account. -/
def isCopy (account : String) (key : ReportedFields) (row : TransactionFields) : Bool :=
  row.accountId = account && row.status = .posted && reportedFields row = key

/-- A copy is of the account. -/
theorem isCopy_account {account : String} {key : ReportedFields} {row : TransactionFields}
    (h : isCopy account key row = true) : row.accountId = account := by
  simp only [isCopy, Bool.and_eq_true, decide_eq_true_eq] at h
  exact h.1.1

/-- A copy was reported alike. -/
theorem isCopy_key {account : String} {key : ReportedFields} {row : TransactionFields}
    (h : isCopy account key row = true) : reportedFields row = key := by
  simp only [isCopy, Bool.and_eq_true, decide_eq_true_eq] at h
  exact h.2

/-- The ids the copies got. -/
def postedIds (result : SourceFetchResult) (account : String) (key : ReportedFields) : List String :=
  (result.transactions.filter fun row => isCopy account key row.toTransactionFields).map (·.id)

section
variable (host : Host)

/-- The rows of a scraped account, before ids. -/
def preparedAccount (input : NormalizeInput) (scraped : ScrapedAccount) :
    Except BridgeError (List TransactionFields) := do
  let account ← normalizeAccount host scraped input
  preparedRows host scraped.txns account input

/-- The rows of each selected account. -/
def preparedAccounts (input : NormalizeInput) : Except BridgeError (List (List TransactionFields)) :=
  (selectAccounts input.result.accounts input.config.accounts).mapM (preparedAccount host input)

/-- Every date of the scrape parses and no id is refused. -/
def Identifiable (input : NormalizeInput) : Prop :=
  ∃ batches, preparedAccounts host input = .ok batches ∧
    ∀ rows ∈ batches, ∀ entry ∈ rows.zipIdx, ∃ row, numberedRow host rows entry = .ok row

/-- For each copy in a batch, the number of rows with its base id before it. -/
def copyNumbers (account : String) (key : ReportedFields) (rows : List TransactionFields) : List Nat :=
  (rows.zipIdx.filter fun entry => isCopy account key entry.1).map (earlierTwins host rows)

/-- The numbers of all copies of a scrape. -/
def twinNumbers (input : NormalizeInput) (account : String) (key : ReportedFields) : List Nat :=
  match preparedAccounts host input with
  | .ok batches => batches.flatMap (copyNumbers host account key)
  | .error _ => []

/-- Both scrapes are normalized, and the row has the same ids in both; where
one reports it more often, the ids of the other are among its ids. -/
def KeepsIds (first second : NormalizeInput) (account : String) (key : ReportedFields) : Prop :=
  ∃ before after, normalizeScrapeResult host first = .ok before ∧
    normalizeScrapeResult host second = .ok after ∧
    Nested (postedIds before account key) (postedIds after account key)

/-! ## One base id -/

/-- The booked date of a row that reports these dates. -/
def reportedBookedDate (input : NormalizeInput) (date processedDate : Option Json) :
    Except BridgeError IsoDate := do
  let processed ← (timestamp processedDate).mapM (toCalendarDate host · input.timezone)
  let purchase ← toCalendarDate host ((timestamp date).getD "") input.timezone
  return if input.config.dateMode = .charge then processed.getD purchase else purchase

/-- How a ledger row comes from a source row. -/
structure NormalizedFrom (input : NormalizeInput) (row : TransactionFields) : Prop where
  company : row.company = input.company
  identifier : row.identifier = normalizeIdentifier host (row.raw.field "identifier")
  bookedDate : reportedBookedDate host input (row.raw.field "date") (row.raw.field "processedDate") =
    .ok row.bookedDate
  description : row.description = (JsText.ofString
    (jsTrim ((Json.asString (row.raw.field "description")).getD ""))).slice
      maxScrapedDescriptionLength
  memo : row.memo = (cleanText host (row.raw.field "memo")).map JsText.ofString
  installmentNumber : row.installmentNumber =
    toPositiveInteger host ((row.raw.field "installments").bind (·.field "number"))
  installmentTotal : row.installmentTotal =
    toPositiveInteger host ((row.raw.field "installments").bind (·.field "total"))

variable {host}

/-- A row is normalised from its source, the account and the setup. -/
theorem normalizeTransaction_spec {source : Json} {account : LedgerAccount} {input : NormalizeInput}
    {row : TransactionFields}
    (h : normalizeTransaction host source account input = .ok (some row)) :
    NormalizedFrom host input row := by
  unfold normalizeTransaction at h
  split at h
  · rename_i amount date hamount hdate
    obtain ⟨processed, hprocessed, h⟩ := except_bind_ok.mp h
    obtain ⟨purchase, hpurchase, h⟩ := except_bind_ok.mp h
    cases h
    refine ⟨rfl, rfl, ?_, rfl, rfl, rfl, rfl⟩
    unfold reportedBookedDate
    rw [hprocessed, hdate]
    dsimp only [Option.getD_some]
    rw [hpurchase]
    rfl
  · cases h

/-- Every prepared row comes from a scraped one. -/
theorem exists_source_of_prepared {input : NormalizeInput}
    {batches : List (List TransactionFields)} (h : preparedAccounts host input = .ok batches)
    {rows : List TransactionFields} (hrows : rows ∈ batches) {row : TransactionFields}
    (hrow : row ∈ rows) :
    ∃ source account, normalizeTransaction host source account input = .ok (some row) := by
  obtain ⟨scraped, -, hscraped⟩ := exists_of_mapM_ok h hrows
  obtain ⟨account, -, hprepared⟩ := except_bind_ok.mp hscraped
  obtain ⟨normalized, hnormalized, hreduced⟩ := except_bind_ok.mp hprepared
  cases hreduced
  obtain ⟨source, -, hsource⟩ := exists_of_mapM_ok hnormalized (List.reduceOption_mem_iff.mp hrow)
  exact ⟨source, account, hsource⟩

/-- So are all rows of a scrape. -/
theorem normalizedFrom_of_prepared {input : NormalizeInput} {batches : List (List TransactionFields)}
    (h : preparedAccounts host input = .ok batches) {rows : List TransactionFields}
    (hrows : rows ∈ batches) {row : TransactionFields} (hrow : row ∈ rows) :
    NormalizedFrom host input row := by
  obtain ⟨source, account, hsource⟩ := exists_source_of_prepared h hrows hrow
  exact normalizeTransaction_spec hsource

/-- Rows that report the same have the same base id. -/
theorem baseTransactionId_eq {input : NormalizeInput} {a b : TransactionFields}
    (ha : NormalizedFrom host input a) (hb : NormalizedFrom host input b)
    (haccount : a.accountId = b.accountId) (hkey : reportedFields a = reportedFields b) :
    baseTransactionId host a = baseTransactionId host b := by
  obtain ⟨hdate, hprocessed, hamount, hdescription, hmemo, hidentifier, hinstallments⟩ :=
    ReportedFields.mk.inj hkey
  have hcompany : a.company = b.company := ha.company.trans hb.company.symm
  have hsameIdentifier : a.identifier = b.identifier := by
    rw [ha.identifier, hb.identifier, hidentifier]
  have hbooked : a.bookedDate = b.bookedDate := by
    have hsame := ha.bookedDate
    rw [hdate, hprocessed, hb.bookedDate] at hsame
    exact (Except.ok.inj hsame).symm
  have hfingerprint : transactionFingerprint host a = transactionFingerprint host b := by
    unfold transactionFingerprint
    rw [hbooked, hamount, ha.description, hb.description, hdescription, ha.memo, hb.memo, hmemo,
      ha.installmentNumber, hb.installmentNumber, ha.installmentTotal, hb.installmentTotal,
      hinstallments]
  unfold baseTransactionId
  rw [haccount, hcompany, hsameIdentifier, hfingerprint]

/-! ## Ids of a batch -/

/-- Numbers are written differently. -/
theorem repr_injective : Function.Injective Nat.repr := by
  intro m n h
  have hdigits := congrArg (fun text => Nat.ofDigitChars 10 text.toList 0) h
  rwa [Nat.toList_repr, Nat.toList_repr, Nat.ofDigitChars_ten_toDigits,
    Nat.ofDigitChars_ten_toDigits] at hdigits

/-- So numbered ids differ. -/
theorem ordinalId_injective (base : String) : Function.Injective fun k => ordinalId base (k + 1) := by
  intro j k h
  have hlength : ∀ n : Nat, (base ++ "#" ++ toString n).length ≠ base.length := by
    intro n
    rw [String.length_append, String.length_append]
    have hhash : "#".length = 1 := rfl
    omega
  simp only [ordinalId] at h
  by_cases hj : j + 1 ≥ 2
  · by_cases hk : k + 1 ≥ 2
    · rw [if_pos hj, if_pos hk, String.append_right_inj] at h
      exact Nat.succ.inj (repr_injective h)
    · rw [if_pos hj, if_neg hk] at h
      exact absurd (congrArg String.length h) (hlength _)
  · by_cases hk : k + 1 ≥ 2
    · rw [if_neg hj, if_pos hk] at h
      exact absurd (congrArg String.length h).symm (hlength _)
    · omega

/-- A numbered row is the row with an id. -/
theorem numberedRow_spec {rows : List TransactionFields} {entry : IndexedRow}
    {row : LedgerTransaction} (h : numberedRow host rows entry = .ok row) :
    row.toTransactionFields = entry.1 ∧ ∃ base, baseTransactionId host entry.1 = .ok base ∧
      row.id = ordinalId base (earlierTwins host rows entry + 1) := by
  obtain ⟨base, hbase, h⟩ := except_bind_ok.mp h
  dsimp only at h
  by_cases hordinal : earlierTwins host rows entry + 1 ≥ 2
  · rw [if_pos hordinal] at h
    obtain ⟨id, hid, h⟩ := except_bind_ok.mp h
    cases h
    refine ⟨rfl, base, hbase, ?_⟩
    unfold assertId at hid
    split_ifs at hid
    exact (Except.ok.inj hid).symm
  · rw [if_neg hordinal] at h
    cases h
    refine ⟨rfl, base, hbase, ?_⟩
    unfold ordinalId
    rw [if_neg hordinal]

/-- The ids of the copies of a batch, by their numbers. -/
theorem ids_of_copies {rows : List TransactionFields} {assigned : List LedgerTransaction}
    (h : assignTransactionIds host rows = .ok assigned) {account base : String}
    {key : ReportedFields}
    (hbase : ∀ row ∈ rows, isCopy account key row = true → baseTransactionId host row = .ok base) :
    (assigned.filter fun row => isCopy account key row.toTransactionFields).map (·.id) =
      (copyNumbers host account key rows).map fun k => ordinalId base (k + 1) := by
  have hrows := assignTransactionIds_ok_iff.mp h
  have hentries : ∀ entry ∈ rows.zipIdx, isCopy account key entry.1 = true →
      baseTransactionId host entry.1 = .ok base := by
    intro entry hentry
    exact hbase entry.1 (List.fst_mem_of_mem_zipIdx hentry)
  unfold copyNumbers
  revert hrows hentries
  clear h
  generalize rows.zipIdx = entries
  intro hrows hentries
  induction entries generalizing assigned with
  | nil =>
      rw [List.map_nil, eq_comm, List.map_eq_nil_iff] at hrows
      rw [hrows]
      rfl
  | cons entry entries ih =>
      cases assigned with
      | nil => cases hrows
      | cons row assigned =>
          obtain ⟨hfirst, hrest⟩ := List.cons.inj hrows
          obtain ⟨hfields, other, hother, hid⟩ := numberedRow_spec hfirst
          have hcopies := ih hrest fun e he => hentries e (List.mem_cons_of_mem _ he)
          by_cases hcopy : isCopy account key entry.1 = true
          · have hsame := hentries entry List.mem_cons_self hcopy
            rw [hother] at hsame
            cases hsame
            rw [List.filter_cons_of_pos (by rw [hfields]; exact hcopy),
              List.filter_cons_of_pos (p := fun e : IndexedRow => isCopy account key e.1) hcopy, List.map_cons, List.map_cons, List.map_cons, hcopies, hid]
          · rw [List.filter_cons_of_neg (by rw [hfields]; exact hcopy),
              List.filter_cons_of_neg (p := fun e : IndexedRow => isCopy account key e.1) hcopy, hcopies]

/-! ## Whole scrapes -/

/-- When an account is normalised. -/
theorem normalizeScraped_ok_iff {input : NormalizeInput} {scraped : ScrapedAccount}
    {transactions : List LedgerTransaction} :
    (∃ part, normalizeScraped host input scraped = .ok part ∧ part.2.1 = transactions) ↔
      ∃ rows, preparedAccount host input scraped = .ok rows ∧
        assignTransactionIds host rows = .ok transactions := by
  constructor
  · intro h
    obtain ⟨part, hpart, rfl⟩ := h
    obtain ⟨account, haccount, hpart⟩ := except_bind_ok.mp hpart
    obtain ⟨transactions, htransactions, hpart⟩ := except_bind_ok.mp hpart
    obtain ⟨rows, hrows, hassigned⟩ := except_bind_ok.mp htransactions
    cases hpart
    exact ⟨rows, except_bind_ok.mpr ⟨account, haccount, hrows⟩, hassigned⟩
  · intro h
    obtain ⟨rows, hrows, hassigned⟩ := h
    obtain ⟨account, haccount, hrows⟩ := except_bind_ok.mp hrows
    refine ⟨(account, transactions, normalizeHoldings scraped account), ?_, rfl⟩
    apply except_bind_ok.mpr
    refine ⟨account, haccount, ?_⟩
    apply except_bind_ok.mpr
    exact ⟨transactions, except_bind_ok.mpr ⟨rows, hrows, hassigned⟩, rfl⟩

/-- The rows of a normalised scrape, account by account. -/
theorem normalizeScrapeResult_ok {input : NormalizeInput} {result : SourceFetchResult}
    (h : normalizeScrapeResult host input = .ok result) :
    ∃ (batches : List (List TransactionFields)) (assigned : List (List LedgerTransaction)),
      preparedAccounts host input = .ok batches ∧
      batches.map (assignTransactionIds host) = assigned.map .ok ∧
      result.transactions = assigned.flatten := by
  obtain ⟨parts, hparts, hresult⟩ := except_bind_ok.mp h
  cases hresult
  unfold preparedAccounts
  rw [mapM_ok_iff] at hparts
  suffices hsplit : ∃ batches : List (List TransactionFields),
      (selectAccounts input.result.accounts input.config.accounts).map (preparedAccount host input) =
        batches.map .ok ∧
      batches.map (assignTransactionIds host) = (parts.map (·.2.1)).map .ok by
    obtain ⟨batches, hbatches, hassigned⟩ := hsplit
    exact ⟨batches, parts.map (·.2.1), mapM_ok_iff.mpr hbatches, hassigned, List.flatMap_def ..⟩
  revert hparts
  clear h
  generalize selectAccounts input.result.accounts input.config.accounts = selected
  intro hparts
  induction selected generalizing parts with
  | nil =>
      rw [List.map_nil, eq_comm, List.map_eq_nil_iff] at hparts
      rw [hparts]
      exact ⟨[], rfl, rfl⟩
  | cons scraped selected ih =>
      cases parts with
      | nil => cases hparts
      | cons part parts =>
          obtain ⟨hpart, hrest⟩ := List.cons.inj hparts
          obtain ⟨rows, hrows, hassigned⟩ := normalizeScraped_ok_iff.mp ⟨part, hpart, rfl⟩
          obtain ⟨batches, hbatches, hothers⟩ := ih parts hrest
          refine ⟨rows :: batches, ?_, ?_⟩
          · rw [List.map_cons, hrows, hbatches, List.map_cons]
          · rw [List.map_cons, hassigned, hothers, List.map_cons, List.map_cons]

/-- Where every id can be assigned, the scrape is normalised. -/
theorem normalizeScrapeResult_of_prepared {input : NormalizeInput}
    {batches : List (List TransactionFields)} (h : preparedAccounts host input = .ok batches)
    (hassign : ∀ rows ∈ batches, ∃ assigned, assignTransactionIds host rows = .ok assigned) :
    ∃ result, normalizeScrapeResult host input = .ok result := by
  have hprepared : ∀ scraped ∈ selectAccounts input.result.accounts input.config.accounts,
      ∃ part, normalizeScraped host input scraped = .ok part := by
    intro scraped hscraped
    have hmem : preparedAccount host input scraped ∈ batches.map Except.ok := by
      rw [← mapM_ok_iff.mp h]
      exact List.mem_map_of_mem hscraped
    obtain ⟨rows, hrows, hok⟩ := List.mem_map.mp hmem
    obtain ⟨assigned, hassigned⟩ := hassign rows hrows
    obtain ⟨part, hpart, -⟩ := normalizeScraped_ok_iff.mpr ⟨rows, hok.symm, hassigned⟩
    exact ⟨part, hpart⟩
  obtain ⟨parts, hparts⟩ := mapM_isOk hprepared
  exact ⟨_, except_bind_ok.mpr ⟨parts, hparts, rfl⟩⟩

/-- A scrape is normalized exactly when its rows can be identified. -/
theorem normalizeScrapeResult_isOk_iff {input : NormalizeInput} :
    (∃ result, normalizeScrapeResult host input = .ok result) ↔ Identifiable host input := by
  constructor
  · intro h
    obtain ⟨result, hresult⟩ := h
    obtain ⟨batches, assigned, hbatches, hassigned, -⟩ := normalizeScrapeResult_ok hresult
    refine ⟨batches, hbatches, ?_⟩
    intro rows hrows entry hentry
    have hmem : assignTransactionIds host rows ∈ assigned.map Except.ok := by
      rw [← hassigned]
      exact List.mem_map_of_mem hrows
    obtain ⟨transactions, -, hok⟩ := List.mem_map.mp hmem
    have hrow : numberedRow host rows entry ∈ transactions.map Except.ok := by
      rw [← assignTransactionIds_ok_iff.mp hok.symm]
      exact List.mem_map_of_mem hentry
    obtain ⟨row, -, hrow⟩ := List.mem_map.mp hrow
    exact ⟨row, hrow.symm⟩
  · intro h
    obtain ⟨batches, hbatches, hrows⟩ := h
    apply normalizeScrapeResult_of_prepared hbatches
    intro rows hmem
    obtain ⟨transactions, htransactions⟩ := mapM_isOk (hrows rows hmem)
    exact ⟨transactions, assignTransactionIds_ok_iff.mpr (mapM_ok_iff.mp htransactions)⟩

/-- The ids of the copies of a scrape, by their numbers. -/
theorem postedIds_eq {input : NormalizeInput} {result : SourceFetchResult}
    (h : normalizeScrapeResult host input = .ok result) {account base : String}
    {key : ReportedFields}
    (hbase : ∀ batches, preparedAccounts host input = .ok batches → ∀ rows ∈ batches, ∀ row ∈ rows,
      isCopy account key row = true → baseTransactionId host row = .ok base) :
    postedIds result account key =
      (twinNumbers host input account key).map fun k => ordinalId base (k + 1) := by
  obtain ⟨batches, assigned, hbatches, hassigned, hresult⟩ := normalizeScrapeResult_ok h
  have hcopies := hbase batches hbatches
  unfold postedIds twinNumbers
  rw [hbatches, hresult]
  dsimp only
  clear hbatches hresult hbase h
  induction batches generalizing assigned with
  | nil =>
      rw [List.map_nil, eq_comm, List.map_eq_nil_iff] at hassigned
      rw [hassigned]
      rfl
  | cons rows batches ih =>
      cases assigned with
      | nil => cases hassigned
      | cons first assigned =>
          obtain ⟨hfirst, hrest⟩ := List.cons.inj hassigned
          have hfirstIds := ids_of_copies hfirst (hcopies rows List.mem_cons_self)
          have hrestIds := ih assigned hrest fun other hother =>
            hcopies other (List.mem_cons_of_mem _ hother)
          rw [List.flatten_cons, List.filter_append, List.map_append, hfirstIds, hrestIds,
            List.flatMap_cons, List.map_append]

/-- All copies in two scrapes of a setup have one base id. -/
theorem exists_base {input later : NormalizeInput}
    (hsetup : ∀ row, NormalizedFrom host later row → NormalizedFrom host input row)
    (hinput : Identifiable host input) (hlater : Identifiable host later) (account : String)
    (key : ReportedFields) :
    ∃ base, ∀ scrape ∈ [input, later], ∀ batches, preparedAccounts host scrape = .ok batches →
      ∀ rows ∈ batches, ∀ row ∈ rows, isCopy account key row = true →
        baseTransactionId host row = .ok base := by
  have hfrom : ∀ scrape ∈ [input, later], ∀ batches, preparedAccounts host scrape = .ok batches →
      ∀ rows ∈ batches, ∀ row ∈ rows, NormalizedFrom host input row := by
    intro scrape hscrape batches hbatches rows hrows row hrow
    have hown := normalizedFrom_of_prepared hbatches hrows hrow
    rcases List.mem_pair.mp hscrape with rfl | rfl
    · exact hown
    · exact hsetup row hown
  by_cases hcopy : ∃ scrape ∈ [input, later], ∃ batches, preparedAccounts host scrape = .ok batches ∧
      ∃ rows ∈ batches, ∃ row ∈ rows, isCopy account key row = true
  · obtain ⟨scrape, hscrape, batches, hbatches, rows, hrows, row, hrow, hisCopy⟩ := hcopy
    have hidentifiable : Identifiable host scrape := by
      rcases List.mem_pair.mp hscrape with rfl | rfl
      · exact hinput
      · exact hlater
    obtain ⟨batches', hbatches', hnumbered⟩ := hidentifiable
    rw [hbatches] at hbatches'
    cases hbatches'
    obtain ⟨place, hplace⟩ := List.mem_iff_getElem?.mp hrow
    obtain ⟨numbered, hnumber⟩ := hnumbered rows hrows (row, place)
      (List.mk_mem_zipIdx_iff_getElem?.mpr hplace)
    obtain ⟨-, base, hbase, -⟩ := numberedRow_spec hnumber
    refine ⟨base, ?_⟩
    intro other hother otherBatches hotherBatches otherRows hotherRows copy hcopy hisOther
    have haccount : copy.accountId = row.accountId :=
      (isCopy_account hisOther).trans (isCopy_account hisCopy).symm
    have hkey : reportedFields copy = reportedFields row :=
      (isCopy_key hisOther).trans (isCopy_key hisCopy).symm
    rw [← hbase]
    exact baseTransactionId_eq (hfrom other hother _ hotherBatches _ hotherRows _ hcopy)
      (hfrom scrape hscrape _ hbatches _ hrows _ hrow) haccount hkey
  · refine ⟨"", ?_⟩
    intro scrape hscrape batches hbatches rows hrows row hrow hisCopy
    exact absurd ⟨scrape, hscrape, batches, hbatches, rows, hrows, row, hrow, hisCopy⟩ hcopy

end

/-- For a later scrape of the same setup, a posted source row keeps its ids
exactly when no date or id of either scrape is refused, and the numbers of its
copies are nested. -/
theorem keepsIds_iff_numbers (host : Host) (input : NormalizeInput) (laterResult : ScraperScrapingResult)
    (laterAt : Instant) (account : String) (key : ReportedFields) :
    KeepsIds host input { input with result := laterResult, scrapedAt := laterAt } account key ↔
      Identifiable host input ∧
      Identifiable host { input with result := laterResult, scrapedAt := laterAt } ∧
      Nested (twinNumbers host input account key)
        (twinNumbers host { input with result := laterResult, scrapedAt := laterAt } account key) := by
  generalize hdefined : { input with result := laterResult, scrapedAt := laterAt } = later
  have hsetup : ∀ row, NormalizedFrom host later row → NormalizedFrom host input row := by
    intro row h
    subst hdefined
    exact ⟨h.company, h.identifier, h.bookedDate, h.description, h.memo, h.installmentNumber,
      h.installmentTotal⟩
  have hids : ∀ before after, normalizeScrapeResult host input = .ok before →
      normalizeScrapeResult host later = .ok after →
      (Nested (postedIds before account key) (postedIds after account key) ↔
        Nested (twinNumbers host input account key) (twinNumbers host later account key)) := by
    intro before after hbefore hafter
    have hinput : Identifiable host input := normalizeScrapeResult_isOk_iff.mp ⟨before, hbefore⟩
    have hlater : Identifiable host later := normalizeScrapeResult_isOk_iff.mp ⟨after, hafter⟩
    obtain ⟨base, hbase⟩ := exists_base hsetup hinput hlater account key
    rw [postedIds_eq hbefore (hbase input List.mem_cons_self),
      postedIds_eq hafter (hbase later (List.mem_cons_of_mem _ List.mem_cons_self))]
    exact nested_map_iff (ordinalId_injective base)
  constructor
  · intro h
    obtain ⟨before, after, hbefore, hafter, hnested⟩ := h
    exact ⟨normalizeScrapeResult_isOk_iff.mp ⟨before, hbefore⟩,
      normalizeScrapeResult_isOk_iff.mp ⟨after, hafter⟩,
      (hids before after hbefore hafter).mp hnested⟩
  · intro h
    obtain ⟨hinput, hlater, hnested⟩ := h
    obtain ⟨before, hbefore⟩ := normalizeScrapeResult_isOk_iff.mpr hinput
    obtain ⟨after, hafter⟩ := normalizeScrapeResult_isOk_iff.mpr hlater
    exact ⟨before, after, hbefore, hafter, (hids before after hbefore hafter).mpr hnested⟩

/-! ## Rows without other twins -/

section
variable {host : Host} {account : String} {key : ReportedFields}

/-- The account is reported once, and the rows with the base id are copies. -/
def OnlyCopies (host : Host) (input : NormalizeInput) (account : String) (key : ReportedFields) :
    Prop :=
  ∃ before rows after, preparedAccounts host input = .ok (before ++ rows :: after) ∧
    (∀ other ∈ before ++ after, ∀ row ∈ other, isCopy account key row = false) ∧
    ∃ base, ∀ row ∈ rows, isCopy account key row = true ↔ baseTransactionId host row = .ok base

/-- Without copies there are no numbers. -/
theorem copyNumbers_eq_nil {rows : List TransactionFields}
    (h : ∀ row ∈ rows, isCopy account key row = false) : copyNumbers host account key rows = [] := by
  unfold copyNumbers
  rw [List.map_eq_nil_iff, List.filter_eq_nil_iff]
  intro entry hentry hcopy
  rw [h entry.1 (List.fst_mem_of_mem_zipIdx hentry)] at hcopy
  cases hcopy

/-- Copies that are all of a base id are numbered from zero. -/
theorem copyNumbers_perm_range {rows : List TransactionFields} {base : String}
    (h : ∀ row ∈ rows, isCopy account key row = true ↔ baseTransactionId host row = .ok base) :
    (copyNumbers host account key rows).Perm
      (List.range (copyNumbers host account key rows).length) := by
  have hgroup : (rows.zipIdx.filter fun entry => isCopy account key entry.1) =
      group (fun e : IndexedRow => baseTransactionId host e.1) (.ok base) rows.zipIdx := by
    apply List.filter_congr
    intro entry hentry
    have hcopy := h entry.1 (List.fst_mem_of_mem_zipIdx hentry)
    rw [Bool.eq_iff_iff, hcopy, decide_eq_true_eq]
  have hperm : (group (fun e : IndexedRow => baseTransactionId host e.1) (.ok base) rows.zipIdx).Perm
      (group (fun e : IndexedRow => baseTransactionId host e.1) (.ok base) (ordered host rows)) :=
    ((ordered_perm host rows).filter _).symm
  have hnumbers := @map_earlier_group _ _ _ (fun e : IndexedRow => baseTransactionId host e.1) _
    (precedes_asymm host) (.ok base) _ (ordered_pairwise host rows)
  have hsame : earlierTwins host rows = earlier (fun e : IndexedRow => baseTransactionId host e.1)
      (precedes host) (ordered host rows) := by
    funext entry
    exact (earlier_perm (ordered_perm host rows) entry).symm
  unfold copyNumbers
  rw [hgroup, List.length_map, hsame, hperm.length_eq, ← hnumbers]
  exact hperm.map _

/-- If all twins are copies, they have all numbers. -/
theorem OnlyCopies.twinNumbers_perm {input : NormalizeInput}
    (h : OnlyCopies host input account key) :
    (twinNumbers host input account key).Perm
      (List.range (twinNumbers host input account key).length) := by
  obtain ⟨before, rows, after, hbatches, hothers, base, hbase⟩ := h
  have hnone : ∀ batches : List (List TransactionFields), (∀ other ∈ batches, other ∈ before ++ after) →
      batches.flatMap (copyNumbers host account key) = [] := by
    intro batches hsubset
    rw [List.flatMap_eq_nil_iff]
    intro other hother
    exact copyNumbers_eq_nil (hothers other (hsubset other hother))
  have hnumbers : twinNumbers host input account key = copyNumbers host account key rows := by
    unfold twinNumbers
    rw [hbatches]
    dsimp only
    rw [List.flatMap_append, List.flatMap_cons, hnone before fun _ h => List.mem_append_left _ h,
      hnone after fun _ h => List.mem_append_right _ h, List.nil_append, List.append_nil]
  rw [hnumbers]
  exact copyNumbers_perm_range hbase

/-- **A row without other twins keeps its ids.** -/
theorem nested_of_onlyCopies {input later : NormalizeInput} (h : OnlyCopies host input account key)
    (hlater : OnlyCopies host later account key) :
    Nested (twinNumbers host input account key) (twinNumbers host later account key) := by
  rw [nested_perm h.twinNumbers_perm hlater.twinNumbers_perm]
  exact nested_range _ _

end

end SimplefinBridge
