import SimplefinBridge.AtomicIngestion
import SimplefinBridge.FeedWindows
import SimplefinBridge.Fingerprints
import SimplefinBridge.Library.Csv

/-!
# CSV export

The ledger is written as CSV: a header, and one record for each row of an
enabled company.  Whatever the texts hold, the file reads back as exactly these
records (`exportCsv_reads_back`).  It lists the rows that the feed serves over
a window that covers every date, and the pending rows that have vanished at
the bank besides (`csv_agrees_iff`).
-/

namespace SimplefinBridge

/-! ## The export -/

/-- `CSV_HEADER` -/
def csvHeader : List String :=
  ["date", "description", "amount", "type", "currency", "external_id", "payee", "notes"]

/-- What is exported. -/
structure CsvExportOptions where
  accountIds : Option (List String) := none
  /-- Inclusive lower bound on `bookedDate`. -/
  fromDate : Option IsoDate := none
  /-- Exclusive upper bound on `bookedDate`. -/
  toDate : Option IsoDate := none
  deriving DecidableEq, Repr

/-- `/[\n\r",]/.test(value)` -/
def needsQuotes (value : JsText) : Bool :=
  value.units.any (· ∈ ['\n', '\r', '"', ','].map JsText.unitOf)

/-- Quote a field when it contains a comma, a quote, CR or LF. -/
def csvField (value : JsText) : JsText :=
  if needsQuotes value then
    "\"" ++ ⟨value.units.flatMap fun unit =>
      if unit = JsText.unitOf '"' then [JsText.unitOf '"', JsText.unitOf '"'] else [unit]⟩ ++ "\""
  else value

section
variable (host : Host)

/-- The fields of a row, as they are read. -/
def csvFields (row : LedgerTransaction) : List JsText :=
  let description := row.description.trim
  [row.bookedDate, description, formatAmount host |row.amount|,
    if row.amount < 0 then "debit" else "credit", row.currency, row.id, description,
    (row.memo.map JsText.trim).getD ""]

/-- A line of the export. -/
def csvRow (row : LedgerTransaction) : JsText :=
  JsText.join "," ((csvFields host row).map csvField)

variable (config : Config) (options : CsvExportOptions)

/-- The configuration of a company. -/
def companyFor (company : CompanyId) : Option CompanyConfig := config.companies.lookup company

/-- The row's company is enabled, and includes pending rows if the row is
pending. -/
def isExported (row : LedgerTransaction) : Bool :=
  (companyFor config row.company).any fun companyConfig =>
    companyConfig.enabled && (row.status ≠ .pending || companyConfig.includePending)

/-- The rows that are exported, in the order of booking. -/
def exportedRows (ledger : Ledger) : List LedgerTransaction :=
  (listTransactions
    { accountIds := options.accountIds
      fromDate := options.fromDate
      toDate := options.toDate
      includePending := true
      includeSynthetic := true } ledger).filter (isExported config)

/-- Export ledger transactions as CSV text. -/
def exportCsv (ledger : Ledger) : JsText :=
  let lines := JsText.join "," (csvHeader.map JsText.ofString) ::
    (exportedRows config options ledger).map (csvRow host)
  JsText.join "\r\n" lines ++ "\r\n"

end

/-! ## Reading the file -/

/-- The marks of CSV as code units. -/
def csvMarks : Csv.Marks UInt16 where
  comma := JsText.unitOf ','
  quote := JsText.unitOf '"'
  cr := JsText.unitOf '\r'
  lf := JsText.unitOf '\n'
  distinct := by decide

/-- The records of a CSV text. -/
def readCsv (text : JsText) : Option (List (List JsText)) :=
  (Csv.parse csvMarks text.units).map fun records => records.map fun fields => fields.map JsText.mk

/-- A field is quoted as the grammar asks. -/
theorem units_csvField (value : JsText) :
    (csvField value).units = Csv.field csvMarks value.units := by
  have hquote : (JsText.ofString "\"").units = [csvMarks.quote] := by decide +kernel
  unfold csvField Csv.field
  change (if needsQuotes value = true then _ else _ : JsText).units =
    if needsQuotes value = true then _ else _
  split_ifs
  · rw [JsText.units_append, JsText.units_append, hquote]
    rfl
  · rfl

/-- A line of fields. -/
theorem units_line (fields : List JsText) :
    (JsText.join "," (fields.map csvField)).units =
      Csv.record csvMarks (fields.map JsText.units) := by
  have hcomma : (JsText.ofString ",").units = [csvMarks.comma] := by decide +kernel
  have hfields : JsText.units ∘ csvField = Csv.field csvMarks ∘ JsText.units :=
    funext units_csvField
  unfold JsText.join Csv.record
  rw [hcomma, List.map_map, List.map_map, hfields]

/-- No name of a column needs quotes. -/
theorem map_csvField_header :
    (csvHeader.map JsText.ofString).map csvField = csvHeader.map JsText.ofString := by
  decide +kernel

/-- The lines, each ended by a line break. -/
theorem intercalate_append_crlf {α : Type*} (crlf line : List α) (lines : List (List α)) :
    crlf.intercalate (line :: lines) ++ crlf =
      (line :: lines).flatMap fun line => line ++ crlf := by
  induction lines generalizing line with
  | nil => simp [List.intercalate]
  | cons next lines ih =>
      have hsplit : crlf.intercalate (line :: next :: lines) =
          line ++ crlf ++ crlf.intercalate (next :: lines) := by
        simp [List.intercalate]
      rw [hsplit, List.append_assoc, ih next]
      rfl

section
variable (host : Host) (config : Config) (options : CsvExportOptions) (ledger : Ledger)

/-- The export is a document of the grammar. -/
theorem units_exportCsv :
    (exportCsv host config options ledger).units =
      Csv.document csvMarks ((csvHeader.map JsText.ofString ::
        (exportedRows config options ledger).map (csvFields host)).map
          fun fields => fields.map JsText.units) := by
  have hlines : (JsText.join "," (csvHeader.map JsText.ofString) ::
      (exportedRows config options ledger).map (csvRow host)).map JsText.units =
      (csvHeader.map JsText.ofString ::
        (exportedRows config options ledger).map (csvFields host)).map
          fun fields => Csv.record csvMarks (fields.map JsText.units) := by
    have hrow : ∀ row, (csvRow host row).units =
        Csv.record csvMarks ((csvFields host row).map JsText.units) := fun row => units_line _
    have hrows : ((exportedRows config options ledger).map (csvRow host)).map JsText.units =
        ((exportedRows config options ledger).map (csvFields host)).map
          fun fields => Csv.record csvMarks (fields.map JsText.units) := by
      rw [List.map_map, List.map_map]
      exact List.map_congr_left fun row _ => hrow row
    rw [List.map_cons, List.map_cons, hrows, ← units_line, map_csvField_header]
  have hbreak : (JsText.ofString "\r\n").units = Csv.crlf csvMarks := by decide +kernel
  unfold exportCsv
  dsimp only
  rw [JsText.units_append, JsText.join, hbreak, List.map_cons, intercalate_append_crlf,
    ← List.map_cons, hlines]
  unfold Csv.document
  rw [List.flatMap_map, List.flatMap_map]

/-- The text of an amount without its sign has no sign. -/
theorem toFixed2_abs (amount : ℚ) (hamount : |amount| < 10 ^ 21) :
    ∃ hundredths : Nat,
      host.toFixed2 |amount| = toString (hundredths / 100) ++ "." ++
        String.ofList (CivilDays.padded 2 (hundredths % 100)) ∧
      abs ((hundredths : ℚ) / 100 - |amount|) ≤ 1 / 200 := by
  have hnonneg : 0 ≤ |amount| * 100 + 1 / 2 := by positivity
  refine ⟨⌊|amount| * 100 + 1 / 2⌋.toNat, ?_, ?_⟩
  · unfold Host.toFixed2
    rw [abs_abs, if_pos hamount, if_neg (not_lt.mpr (abs_nonneg amount))]
    generalize ⌊|amount| * 100 + 1 / 2⌋.toNat = hundredths
    have htwo : ∀ k < 100, (if k < 10 then "0" else "") ++ toString k =
        String.ofList (CivilDays.padded 2 k) := by decide +kernel
    dsimp only
    rw [String.empty_append, String.append_assoc, htwo _ (Nat.mod_lt _ (by decide))]
  · have hfloor := Int.floor_le (|amount| * 100 + 1 / 2)
    have hfloor' := Int.lt_floor_add_one (|amount| * 100 + 1 / 2)
    have hcast : ((⌊|amount| * 100 + 1 / 2⌋.toNat : ℕ) : ℚ) = (⌊|amount| * 100 + 1 / 2⌋ : ℚ) := by
      have hpos := Int.floor_nonneg.mpr hnonneg
      have hint := Int.toNat_of_nonneg hpos
      exact_mod_cast congrArg (Int.cast : Int → ℚ) hint
    rw [hcast, abs_le]
    constructor
    · linarith
    · linarith

/-- An amount of this size is printed with two decimals. -/
theorem formatAmount_abs (amount : ℚ) (hamount : |amount| < 10 ^ 21) :
    formatAmount host |amount| = host.toFixed2 |amount| := by
  unfold formatAmount
  dsimp only
  rw [if_neg]
  intro hzero
  obtain ⟨hundredths, htext, -⟩ := toFixed2_abs host amount hamount
  have hsign : '-' ∈ (host.toFixed2 |amount|).toList := by
    rw [hzero]
    decide
  rw [htext, String.toList_append, String.toList_append, List.mem_append, List.mem_append] at hsign
  rcases hsign with (hwhole | hpoint) | hcents
  · have hdigit := mem_toString_nat hwhole
    exact absurd hdigit (by decide)
  · revert hpoint
    decide
  · rw [String.toList_ofList] at hcents
    exact absurd (CivilDays.isDigit_of_mem_padded hcents) (by decide)

end

/-- **The file reads back.**  Whatever the texts hold, reading an export gives
the header and one record for each row, in order, with the row's fields; an
amount below 10²¹ has two decimals and is the nearest hundredth. -/
theorem exportCsv_reads_back (host : Host) (config : Config) (options : CsvExportOptions)
    (ledger : Ledger) :
    readCsv (exportCsv host config options ledger) =
        some (csvHeader.map JsText.ofString :: (exportedRows config options ledger).map fun row =>
          [JsText.ofString row.bookedDate, row.description.trim, formatAmount host |row.amount|,
            if row.amount < 0 then "debit" else "credit", row.currency, row.id,
            row.description.trim, (row.memo.map JsText.trim).getD ""]) ∧
      ∀ row ∈ exportedRows config options ledger, |row.amount| < 10 ^ 21 →
        ∃ hundredths : Nat,
          formatAmount host |row.amount| = toString (hundredths / 100) ++ "." ++
            String.ofList (CivilDays.padded 2 (hundredths % 100)) ∧
          abs ((hundredths : ℚ) / 100 - |row.amount|) ≤ 1 / 200 := by
  constructor
  · have hrecords : ∀ fields ∈ (csvHeader.map JsText.ofString ::
        (exportedRows config options ledger).map (csvFields host)).map
          (fun fields => fields.map JsText.units), fields ≠ [] := by
      intro fields hfields hempty
      obtain ⟨texts, htexts, rfl⟩ := List.mem_map.mp hfields
      rw [List.map_eq_nil_iff] at hempty
      rcases List.mem_cons.mp htexts with rfl | hrow
      · cases hempty
      · obtain ⟨row, -, rfl⟩ := List.mem_map.mp hrow
        cases hempty
    have hback : (fun fields : List (List UInt16) => fields.map JsText.mk) ∘
        (fun fields : List JsText => fields.map JsText.units) = id := by
      funext fields
      change (fields.map JsText.units).map JsText.mk = fields
      rw [List.map_map]
      exact List.map_id fields
    unfold readCsv
    rw [units_exportCsv, Csv.parse_document csvMarks hrecords, Option.map_some, List.map_map,
      hback, List.map_id]
    rfl
  · intro row _ hamount
    rw [formatAmount_abs host _ hamount]
    exact toFixed2_abs host _ hamount

/-! ## The file and the feed -/

/-- The transactions of every account of a response. -/
def SimpleFinResponse.transactions (response : SimpleFinResponse) : List SimpleFinTransaction :=
  response.accounts.flatMap (·.transactions)

/-- An amount's text without its sign. -/
def unsigned (text : String) : String :=
  String.ofList (match text.toList with
    | '-' :: digits => digits
    | digits => digits)

/-- Every row belongs to a stored account of its company. -/
def LinkedRows (ledger : Ledger) : Prop :=
  ∀ row ∈ ledger.transactions.rows, ∃ account ∈ ledger.accounts.rows,
    account.id = row.accountId ∧ account.company = row.company

/-- The query asks for every account, pending rows included, over a window that
holds the date of every row. -/
structure CoversLedger (host : Host) (config : Config) (query : AccountsQuery) (ledger : Ledger) :
    Prop where
  pending : query.pending = true
  transactions : query.balancesOnly = false
  everyAccount : query.accountIds = none
  covers : ∃ window, windowDates query = some window ∧
    ∀ account ∈ ledger.accounts.rows, ∀ row ∈ ledger.transactions.rows,
      row.accountId = account.id →
        (window.toDate.all fun stop => jsLess (transactionDate host row config.timezone
          (account.kind = .credit_card)).date stop) = true ∧
        (window.fromDate.all fun start => !jsLess (transactionDate host row config.timezone
          (account.kind = .credit_card)).date start) = true

/-- `String(x)` of a number from 10²¹ on: the text of a negative one is a minus
sign and the text of its opposite. -/
structure SignedTexts (host : Host) : Prop where
  negative : ∀ x, x ≤ -10 ^ 21 → host.formatNumber x = "-" ++ host.formatNumber (-x)
  positive : ∀ x, 10 ^ 21 ≤ x → (host.formatNumber x).toList.head? ≠ some '-'

section
variable {host : Host} {config : Config} {query : AccountsQuery} {ledger : Ledger} {now : Instant}

/-- The configuration that is looked up. -/
theorem companyFor_iff {company : CompanyId} {companyConfig : CompanyConfig} :
    companyFor config company = some companyConfig ↔
      (company, companyConfig) ∈ config.companies := by
  unfold companyFor
  have hnodup := config.companies_nodup
  generalize config.companies = entries at hnodup ⊢
  induction entries with
  | nil => exact ⟨nofun, nofun⟩
  | cons entry entries ih =>
      rw [List.map_cons, List.nodup_cons] at hnodup
      rw [List.lookup_cons, List.mem_cons]
      by_cases hcompany : company = entry.1
      · have hother : (company, companyConfig) ∉ entries := by
          intro hmem
          apply hnodup.1
          rw [← hcompany]
          exact List.mem_map_of_mem hmem
        rw [beq_iff_eq.mpr hcompany]
        constructor
        · intro h
          refine .inl (Prod.ext hcompany ?_)
          exact (Option.some.inj h).symm
        · intro h
          rcases h with h | h
          · exact congrArg (fun e : CompanyId × CompanyConfig => some e.2) h.symm
          · exact absurd h hother
      · rw [beq_eq_false_iff_ne.mpr hcompany]
        constructor
        · intro h
          exact .inr ((ih hnodup.2).mp h)
        · intro h
          rcases h with h | h
          · exact absurd (congrArg Prod.fst h) hcompany
          · exact (ih hnodup.2).mpr h

/-- The rows of the whole export. -/
theorem mem_exportedRows {row : LedgerTransaction} :
    row ∈ exportedRows config {} ledger ↔
      row ∈ ledger.transactions.rows ∧ isExported config row = true := by
  unfold exportedRows
  rw [List.mem_filter, mem_listTransactions]
  simp [TransactionQuery.admits]

/-- A row is exported if its company is configured and bridged. -/
theorem isExported_iff {row : LedgerTransaction} :
    isExported config row = true ↔ ∃ companyConfig,
      (row.company, companyConfig) ∈ config.companies ∧ companyConfig.enabled = true ∧
        (row.status = .posted ∨ companyConfig.includePending = true) := by
  unfold isExported
  rw [Option.any_eq_true]
  refine exists_congr fun companyConfig => ?_
  rw [companyFor_iff]
  cases row.status with
  | posted => simp
  | pending => simp

/-! ## Amounts -/

/-- The sign comes before the digits, -/
theorem toFixed2_sign (hsigns : SignedTexts host) (amount : ℚ) :
    host.toFixed2 amount = (if amount < 0 then "-" else "") ++ host.toFixed2 |amount| := by
  unfold Host.toFixed2
  rw [abs_abs]
  by_cases hsmall : |amount| < 10 ^ 21
  · rw [if_pos hsmall, if_pos hsmall, if_neg (not_lt.mpr (abs_nonneg amount))]
    dsimp only
    rw [String.empty_append]
    simp only [String.append_assoc]
  · have hlarge : ∀ x : ℚ, |x| = |amount| → host.numberToString x = host.formatNumber x := by
      intro x hx
      unfold Host.numberToString
      rw [hx, if_neg (fun h => hsmall h.2)]
    rw [if_neg hsmall, if_neg hsmall, hlarge _ rfl, hlarge _ (abs_abs amount)]
    by_cases hneg : amount < 0
    · rw [if_pos hneg, abs_of_neg hneg]
      rw [abs_of_neg hneg] at hsmall
      exact hsigns.negative amount (by linarith)
    · rw [if_neg hneg, abs_of_nonneg (not_lt.mp hneg), String.empty_append]

/-- and there is one only. -/
theorem head_toFixed2_abs (hsigns : SignedTexts host) (amount : ℚ) :
    (host.toFixed2 |amount|).toList.head? ≠ some '-' := by
  by_cases hsmall : |amount| < 10 ^ 21
  · obtain ⟨hundredths, htext, -⟩ := toFixed2_abs host amount hsmall
    intro hhead
    have hmem := List.mem_of_mem_head? hhead
    rw [htext, String.toList_append, String.toList_append, List.mem_append, List.mem_append]
      at hmem
    rcases hmem with (hwhole | hpoint) | hcents
    · have hdigit := mem_toString_nat hwhole
      exact absurd hdigit (by decide)
    · revert hpoint
      decide
    · rw [String.toList_ofList] at hcents
      exact absurd (CivilDays.isDigit_of_mem_padded hcents) (by decide)
  · unfold Host.toFixed2 Host.numberToString
    rw [abs_abs, if_neg hsmall, if_neg (fun h => hsmall h.2)]
    exact hsigns.positive _ (not_lt.mp hsmall)

/-- A text without a sign, -/
theorem unsigned_of_head {text : String} (h : text.toList.head? ≠ some '-') :
    unsigned text = text := by
  unfold unsigned
  rw [← String.toList_inj, String.toList_ofList]
  split
  · rename_i digits heq
    rw [heq] at h
    exact absurd rfl h
  · rfl

/-- and one with a sign. -/
theorem unsigned_minus (text : String) : unsigned ("-" ++ text) = text := by
  unfold unsigned
  rw [← String.toList_inj, String.toList_ofList, String.toList_append]
  rfl

/-- **Amounts.**  The feed's amount without its sign is the file's. -/
theorem unsigned_formatAmount (hsigns : SignedTexts host) (amount : ℚ) :
    unsigned (formatAmount host amount) = formatAmount host |amount| := by
  have hhead := head_toFixed2_abs hsigns amount
  have hplain : formatAmount host |amount| = host.toFixed2 |amount| := by
    unfold formatAmount
    dsimp only
    rw [if_neg]
    intro hzero
    rw [hzero] at hhead
    exact hhead (by decide)
  rw [hplain]
  unfold formatAmount
  dsimp only
  rw [toFixed2_sign hsigns amount]
  by_cases hneg : amount < 0
  · rw [if_pos hneg]
    by_cases hzero : "-" ++ host.toFixed2 |amount| = "-0.00"
    · rw [if_pos hzero]
      have hunsigned := congrArg unsigned hzero
      rw [unsigned_minus] at hunsigned
      rw [hunsigned]
      decide
    · rw [if_neg hzero]
      exact unsigned_minus _
  · rw [if_neg hneg, String.empty_append, if_neg]
    · exact unsigned_of_head hhead
    · intro hzero
      rw [hzero] at hhead
      exact hhead (by decide)

/-! ## Rows -/

/-- **What the feed serves** over a window that covers the ledger. -/
theorem mem_feed (hcovers : CoversLedger host config query ledger)
    {served : SimpleFinTransaction} :
    served ∈ (buildAccountsResponse host config query now ledger).transactions ↔
      ∃ row ∈ ledger.transactions.rows, ∃ account ∈ ledger.accounts.rows, ∃ companyConfig,
        row.accountId = account.id ∧ (account.company, companyConfig) ∈ config.companies ∧
        companyConfig.enabled = true ∧
        (row.status = .posted ∨
          (companyConfig.includePending = true ∧ account.lastSeen ≤ row.lastSeen)) ∧
        served = toSimpleFinTransaction host row
          (normalizeCurrency host account.currency config.currency)
          (transactionDate host row config.timezone (account.kind = .credit_card)) := by
  obtain ⟨window, hwindow, hdates⟩ := hcovers.covers
  unfold SimpleFinResponse.transactions
  rw [List.mem_flatMap]
  constructor
  · rintro ⟨shown, hshown, hserved⟩
    obtain ⟨entry, hentry, account, ⟨hfound, hcompany, -⟩, rfl⟩ := mem_served.mp hshown
    obtain ⟨henabled, hon⟩ := List.mem_filter.mp hentry
    obtain ⟨d, hd, rfl⟩ := List.mem_map.mp hserved
    obtain ⟨hrow, haccount, hstatus, hdate, -⟩ :=
      (mem_servedRows hwindow hcovers.transactions).mp hd
    refine ⟨d.1, hrow, account, KeyedTable.mem_of_find hfound, entry.2, haccount, ?_, hon, ?_, ?_⟩
    · rw [hcompany]
      exact henabled
    · rcases hstatus with hposted | ⟨-, hpending, hcurrent⟩
      · exact .inl hposted
      · exact .inr ⟨hpending, hcurrent⟩
    · rw [← hdate]
  · rintro ⟨row, hrow, account, haccount, companyConfig, hid, hentry, hon, hstatus, rfl⟩
    refine ⟨toSimpleFinAccount host config query now account companyConfig ledger,
      mem_served.mpr ⟨(account.company, companyConfig), List.mem_filter.mpr ⟨hentry, hon⟩, account,
        ⟨KeyedTable.find_of_mem haccount, rfl, ?_⟩, rfl⟩, ?_⟩
    · rw [hcovers.everyAccount]
      rfl
    · obtain ⟨hto, hfrom⟩ := hdates account haccount row hrow hid
      refine List.mem_map.mpr ⟨(row, transactionDate host row config.timezone
        (account.kind = .credit_card)), ?_, rfl⟩
      refine (mem_servedRows hwindow hcovers.transactions).mpr ⟨hrow, hid, ?_, rfl, ?_⟩
      · rcases hstatus with hposted | ⟨hpending, hcurrent⟩
        · exact .inl hposted
        · exact .inr ⟨hcovers.pending, hpending, hcurrent⟩
      · unfold inWindow
        rw [hto, hfrom]
        rfl

end

/-- No exported row is a pending row that the latest scrape of its account did
not report any more. -/
def NoneVanished (config : Config) (ledger : Ledger) : Prop :=
  ∀ row ∈ ledger.transactions.rows, ∀ account ∈ ledger.accounts.rows, row.accountId = account.id →
    isExported config row = true → isCurrentPending row account = true

/-- **The file and the feed.**  Over a window that covers every row of a linked
ledger, the export without a filter and the feed hold the same ids with the
same absolute amounts, exactly when no exported pending row has vanished. -/
theorem csv_agrees_iff (host : Host) (hsigns : SignedTexts host) (config : Config)
    (query : AccountsQuery) (now : Instant) (ledger : Ledger) (hlinked : LinkedRows ledger)
    (hcovers : CoversLedger host config query ledger) :
    ((∀ id, id ∈ (exportedRows config {} ledger).map (·.id) ↔
        id ∈ (buildAccountsResponse host config query now ledger).transactions.map (·.id)) ∧
      ∀ row ∈ exportedRows config {} ledger,
        ∀ served ∈ (buildAccountsResponse host config query now ledger).transactions,
          served.id = row.id → unsigned served.amount = formatAmount host |row.amount|) ↔
      NoneVanished config ledger := by
  have hsame : ∀ {a b : LedgerAccount}, a ∈ ledger.accounts.rows → b ∈ ledger.accounts.rows →
      a.id = b.id → a = b := fun ha hb hid => KeyedTable.eq_of_key_eq ha hb hid
  constructor
  · rintro ⟨hids, -⟩ row hrow account haccount hid hexported
    have hmem := (hids row.id).mp (List.mem_map_of_mem (mem_exportedRows.mpr ⟨hrow, hexported⟩))
    obtain ⟨served, hserved, hservedId⟩ := List.mem_map.mp hmem
    obtain ⟨row', hrow', account', haccount', companyConfig, hid', -, -, hstatus, rfl⟩ :=
      (mem_feed hcovers).mp hserved
    obtain rfl : row' = row := KeyedTable.eq_of_key_eq hrow' hrow hservedId
    obtain rfl : account' = account := hsame haccount' haccount (hid'.symm.trans hid)
    unfold isCurrentPending
    rcases hstatus with hposted | ⟨-, hcurrent⟩
    · rw [hposted]
      rfl
    · rw [decide_eq_true hcurrent, Bool.or_true]
  · intro hnone
    refine ⟨?_, ?_⟩
    · intro id
      constructor
      · intro hmem
        obtain ⟨row, hexported, rfl⟩ := List.mem_map.mp hmem
        obtain ⟨hrow, hexported⟩ := mem_exportedRows.mp hexported
        obtain ⟨account, haccount, hid, hcompany⟩ := hlinked row hrow
        obtain ⟨companyConfig, hentry, hon, hstatus⟩ := isExported_iff.mp hexported
        have hcurrent := hnone row hrow account haccount hid.symm hexported
        refine List.mem_map.mpr ⟨_, (mem_feed hcovers).mpr ⟨row, hrow, account, haccount,
          companyConfig, hid.symm, ?_, hon, ?_, rfl⟩, rfl⟩
        · rw [hcompany]
          exact hentry
        · rcases hstatus with hposted | hpending
          · exact .inl hposted
          · unfold isCurrentPending at hcurrent
            cases hcase : row.status with
            | posted => exact .inl rfl
            | pending =>
                rw [hcase] at hcurrent
                refine .inr ⟨hpending, ?_⟩
                simpa using hcurrent
      · intro hmem
        obtain ⟨served, hserved, rfl⟩ := List.mem_map.mp hmem
        obtain ⟨row, hrow, account, haccount, companyConfig, hid, hentry, hon, hstatus, rfl⟩ :=
          (mem_feed hcovers).mp hserved
        refine List.mem_map.mpr ⟨row, mem_exportedRows.mpr ⟨hrow, isExported_iff.mpr
          ⟨companyConfig, ?_, hon, ?_⟩⟩, rfl⟩
        · obtain ⟨account', haccount', hid', hcompany⟩ := hlinked row hrow
          obtain rfl : account' = account := hsame haccount' haccount (hid'.trans hid)
          rw [← hcompany]
          exact hentry
        · exact hstatus.imp id And.left
    · intro row hexported served hserved hservedId
      obtain ⟨hrow, -⟩ := mem_exportedRows.mp hexported
      obtain ⟨row', hrow', account, -, companyConfig, -, -, -, -, rfl⟩ :=
        (mem_feed hcovers).mp hserved
      obtain rfl : row' = row := KeyedTable.eq_of_key_eq hrow' hrow hservedId
      exact unsigned_formatAmount hsigns _

/-- A host that prints large numbers with their sign. -/
def signedHost : Host :=
  { asciiHost with
    formatNumber := fun x => if x < 0 then "-1e+21" else "1e+21"
    formatNumber_noNul := by
      intro x
      split_ifs
      · decide
      · decide }

/-- The example's host prints signs like any other. -/
theorem signedTexts_signedHost : SignedTexts signedHost := by
  constructor
  · intro x hx
    have hneg : x < 0 := by linarith
    have hpos : ¬ -x < 0 := by linarith
    change (if x < 0 then "-1e+21" else "1e+21") = "-" ++ if -x < 0 then "-1e+21" else "1e+21"
    rw [if_pos hneg, if_neg hpos]
    decide
  · intro x hx
    have hpos : ¬ x < 0 := by linarith
    change (if x < 0 then "-1e+21" else "1e+21").toList.head? ≠ some '-'
    rw [if_neg hpos]
    decide

/-- A later scrape of the account no longer reported the pending purchase. -/
def vanishedLedger : Ledger :=
  { pendingLedger with accounts := KeyedTable.empty.put { calAccount with lastSeen := 1000 } }

/-- A window since the epoch covers the example. -/
theorem covers_sinceTheEpoch {ledger : Ledger}
    (hdates : ∀ account ∈ ledger.accounts.rows, ∀ row ∈ ledger.transactions.rows,
      row.accountId = account.id → jsLess (transactionDate signedHost row calConfig.timezone
        (account.kind = .credit_card)).date "1970-01-01" = false) :
    CoversLedger signedHost calConfig sinceTheEpoch ledger where
  pending := rfl
  transactions := rfl
  everyAccount := rfl
  covers := by
    refine ⟨⟨some "1970-01-01", none⟩, by decide +kernel, ?_⟩
    intro account haccount row hrow hid
    refine ⟨rfl, ?_⟩
    rw [Option.all_some, hdates account haccount row hrow hid]
    rfl

/-- A pending row that vanished at the bank is still exported. -/
theorem vanished_row_in_csv :
    LinkedRows vanishedLedger ∧ CoversLedger signedHost calConfig sinceTheEpoch vanishedLedger ∧
      "visaCal:1234:p:coffee" ∈ (exportedRows calConfig {} vanishedLedger).map (·.id) ∧
      "visaCal:1234:p:coffee" ∉ (buildAccountsResponse signedHost calConfig sinceTheEpoch 0
        vanishedLedger).transactions.map (·.id) := by
  refine ⟨?_, covers_sinceTheEpoch (by decide +kernel), by decide +kernel, by decide +kernel⟩
  unfold LinkedRows
  decide +kernel

/-- With pending rows of the last scrape only, both readers see the same. -/
theorem csv_agrees_pending :
    ((∀ id, id ∈ (exportedRows calConfig {} pendingLedger).map (·.id) ↔
        id ∈ (buildAccountsResponse signedHost calConfig sinceTheEpoch 0
          pendingLedger).transactions.map (·.id)) ∧
      ∀ row ∈ exportedRows calConfig {} pendingLedger,
        ∀ served ∈ (buildAccountsResponse signedHost calConfig sinceTheEpoch 0
          pendingLedger).transactions,
          served.id = row.id → unsigned served.amount = formatAmount signedHost |row.amount|) ↔
      NoneVanished calConfig pendingLedger :=
  csv_agrees_iff signedHost signedTexts_signedHost calConfig sinceTheEpoch 0 pendingLedger
    (by unfold LinkedRows; decide +kernel) (covers_sinceTheEpoch (by decide +kernel))

end SimplefinBridge
