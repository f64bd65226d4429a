import SimplefinBridge.OrdinalLabels

/-!
# When a row keeps its ids

Two rows of an account are twins when they have the same identifier and the
same fingerprint: their base ids are spelled alike.  What the id of a copy
depends on besides is how many of its twins are charged before it, and how
many are charged on the same day and listed before it.  A posted row keeps its
ids from one scrape to another exactly when both scrapes are accepted and these
counts are nested (`keepsIds_iff`).  A pending twin that is gone from the next
scrape makes them differ (`pending_twin_moves_id`).
-/

namespace SimplefinBridge

open Occurrences Separators Transactional

/-! ## Twins -/

section
variable (host : Host)

/-- The rows have the same identifier, or `-` for a missing one, and the same
fingerprint. -/
def twin (a b : TransactionFields) : Bool :=
  a.identifier.getD "-" = b.identifier.getD "-" &&
    transactionFingerprint host a = transactionFingerprint host b

/-- The order by charge date and identifier. -/
def chargeOrder (a b : TransactionFields) : Ordering :=
  (host.localeCompare (a.chargeDate.getD "") (b.chargeDate.getD "")).then
    (host.localeCompare (a.identifier.getD "") (b.identifier.getD ""))

/-- How many twins of a listed row are charged before it. -/
def chargedBefore (rows : List TransactionFields) (entry : IndexedRow) : Nat :=
  rows.countP fun other => twin host other entry.1 && chargeOrder host other entry.1 = .lt

/-- How many twins of a listed row are charged on its day and listed before
it. -/
def listedBefore (rows : List TransactionFields) (entry : IndexedRow) : Nat :=
  (rows.take entry.2).countP fun other =>
    twin host other entry.1 && chargeOrder host other entry.1 = .eq

/-- For each copy in the batches of a scrape, how many of its twins come before
it. -/
def copyRanks (input : NormalizeInput) (account : String) (key : ReportedFields) : List Nat :=
  match preparedAccounts host input with
  | .ok batches => batches.flatMap fun rows =>
      (rows.zipIdx.filter fun entry => isCopy account key entry.1).map fun entry =>
        chargedBefore host rows entry + listedBefore host rows entry
  | .error _ => []

/-- The row's texts can stand in an id, and its id is within the limit with any
number up to that of its twins. -/
def Labelled (rows : List TransactionFields) (row : TransactionFields) : Prop :=
  Encodable row ∧ ∀ k < rows.countP (twin host · row),
    jsLength (ordinalId (baseIdText host row) (k + 1)) ≤ maxIdLength

instance (rows : List TransactionFields) : DecidablePred (Labelled host rows) := fun row =>
  inferInstanceAs (Decidable (Encodable row ∧ ∀ k < rows.countP (twin host · row),
    jsLength (ordinalId (baseIdText host row) (k + 1)) ≤ maxIdLength))

/-- Every date of the selected accounts parses, and every row can be
labelled. -/
def AcceptableScrape (input : NormalizeInput) : Prop :=
  ∃ batches, preparedAccounts host input = .ok batches ∧
    ∀ rows ∈ batches, ∀ row ∈ rows, Labelled host rows row

instance : DecidablePred (AcceptableScrape host) := fun input =>
  match h : preparedAccounts host input with
  | .ok batches =>
      decidable_of_iff (∀ rows ∈ batches, ∀ row ∈ rows, Labelled host rows row) <| by
        constructor
        · intro hlabelled
          exact ⟨batches, h, hlabelled⟩
        · rintro ⟨other, hother, hlabelled⟩
          rw [h] at hother
          rw [Except.ok.inj hother]
          exact hlabelled
  | .error _ => Decidable.isFalse <| by
      rintro ⟨other, hother, -⟩
      rw [h] at hother
      cases hother

end

section
variable {host : Host}

/-! ## One account -/

/-- The rows of one account and company. -/
def OneAccount (rows : List TransactionFields) : Prop :=
  ∃ account company, ∀ row ∈ rows, row.accountId = account ∧ row.company = company

/-- A batch of a scrape is of one account. -/
theorem oneAccount_of_prepared {input : NormalizeInput} {batches : List (List TransactionFields)}
    (h : preparedAccounts host input = .ok batches) {rows : List TransactionFields}
    (hrows : rows ∈ batches) : OneAccount rows := by
  obtain ⟨scraped, -, hscraped⟩ := exists_of_mapM_ok h hrows
  obtain ⟨account, -, hprepared⟩ := except_bind_ok.mp hscraped
  obtain ⟨normalized, hnormalized, hreduced⟩ := except_bind_ok.mp hprepared
  cases hreduced
  refine ⟨account.id, input.company, ?_⟩
  intro row hrow
  obtain ⟨source, -, hsource⟩ := exists_of_mapM_ok hnormalized (List.reduceOption_mem_iff.mp hrow)
  unfold normalizeTransaction at hsource
  split at hsource
  · obtain ⟨processed, -, hsource⟩ := except_bind_ok.mp hsource
    obtain ⟨purchase, -, hsource⟩ := except_bind_ok.mp hsource
    cases hsource
    exact ⟨rfl, rfl⟩
  · cases hsource

theorem identifierText_eq_iff_getD {a b : Option String} :
    identifierText a = identifierText b ↔ a.getD "-" = b.getD "-" := by
  rw [identifierText_eq_iff]
  cases a with
  | none =>
      cases b with
      | none => simp
      | some b => simp [eq_comm]
  | some a =>
      cases b with
      | none => simp
      | some b => simp

/-- **Twins** of one account are the rows whose base ids are spelled alike. -/
theorem baseIdText_eq_iff (hhash : HexDigests host) {a b : TransactionFields}
    (haccount : a.accountId = b.accountId) (hcompany : a.company = b.company) :
    baseIdText host a = baseIdText host b ↔ twin host a b = true := by
  have hsame : accountIdText a = accountIdText b := by
    unfold accountIdText
    rw [haccount, hcompany]
  have hcolon : ∀ row : TransactionFields, ':' ∉ (transactionFingerprint host row).toList := by
    intro row hmem
    have hchar := List.all_eq_true.mp (isFingerprint_transactionFingerprint hhash row) _ hmem
    revert hchar
    decide
  have hsplit : ∀ row : TransactionFields, (baseIdText host row).toList =
      ((accountIdText row).toList ++ ':' :: (identifierText row.identifier).toList) ++
        ':' :: (transactionFingerprint host row).toList := by
    intro row
    unfold baseIdText
    simp [String.toList_append]
  unfold twin
  rw [← String.toList_inj, hsplit, hsplit, last_field_inj (hcolon a) (hcolon b), hsame,
    List.append_cancel_left_eq, List.cons_inj_right, String.toList_inj, String.toList_inj,
    identifierText_eq_iff_getD, Bool.and_eq_true, decide_eq_true_eq, decide_eq_true_eq]

/-- Rows with base ids are twins when the base ids are equal. -/
theorem base_eq_iff_twin (hhash : HexDigests host) {rows : List TransactionFields}
    (hone : OneAccount rows) (hbases : ∀ row ∈ rows, ∃ base, baseTransactionId host row = .ok base)
    {a b : TransactionFields} (ha : a ∈ rows) (hb : b ∈ rows) :
    baseTransactionId host a = baseTransactionId host b ↔ twin host a b = true := by
  obtain ⟨account, company, hsame⟩ := hone
  obtain ⟨base, hbase⟩ := hbases a ha
  obtain ⟨base', hbase'⟩ := hbases b hb
  rw [← baseIdText_eq_iff hhash ((hsame a ha).1.trans (hsame b hb).1.symm)
    ((hsame a ha).2.trans (hsame b hb).2.symm), ← base_eq_text hhash hbase,
    ← base_eq_text hhash hbase', hbase, hbase']
  constructor
  · exact Except.ok.inj
  · exact congrArg Except.ok

/-! ## Counts -/

/-- The number of a listed row counts the twins charged before it, and those
charged on its day and listed before it. -/
theorem earlierTwins_eq (hhash : HexDigests host) {rows : List TransactionFields}
    (hone : OneAccount rows) (hbases : ∀ row ∈ rows, ∃ base, baseTransactionId host row = .ok base)
    {entry : IndexedRow} (hentry : entry ∈ rows.zipIdx) :
    earlierTwins host rows entry = chargedBefore host rows entry + listedBefore host rows entry := by
  have hsplit : ∀ other ∈ rows.zipIdx,
      ((decide (baseTransactionId host other.1 = baseTransactionId host entry.1) &&
          precedes host other entry) = true ↔
        (twin host other.1 entry.1 && chargeOrder host other.1 entry.1 = .lt) = true ∨
          ((twin host other.1 entry.1 && chargeOrder host other.1 entry.1 = .eq) &&
            decide (other.2 < entry.2)) = true) := by
    intro other hother
    have htwin := base_eq_iff_twin hhash hone hbases (List.fst_mem_of_mem_zipIdx hother)
      (List.fst_mem_of_mem_zipIdx hentry)
    have hcompare : compareForOrdinals host other entry =
        (chargeOrder host other.1 entry.1).then (compare other.2 entry.2) := by
      unfold compareForOrdinals chargeOrder
      rw [Ordering.then_assoc]
    have hplace : (compare other.2 entry.2).isLT = decide (other.2 < entry.2) := by
      rw [Bool.eq_iff_iff, decide_eq_true_eq, Ordering.isLT_iff_eq_lt]
      exact Nat.compare_eq_lt
    unfold precedes
    rw [hcompare, Bool.and_eq_true, decide_eq_true_eq, htwin]
    cases chargeOrder host other.1 entry.1 with
    | lt => simp
    | eq => simp [hplace]
    | gt => simp
  have hdisjoint : ∀ other ∈ rows.zipIdx,
      (twin host other.1 entry.1 && chargeOrder host other.1 entry.1 = .lt) = true →
      ((twin host other.1 entry.1 && chargeOrder host other.1 entry.1 = .eq) &&
        decide (other.2 < entry.2)) = true → False := by
    intro other _ hlt heq
    simp only [Bool.and_eq_true, decide_eq_true_eq] at hlt heq
    rw [hlt.2] at heq
    cases heq.1.2
  unfold earlierTwins earlier chargedBefore listedBefore
  rw [← countP_zipIdx_lt, ← countP_zipIdx rows]
  exact countP_eq_add hsplit hdisjoint

/-- The twins of a row are the rows with its base id. -/
theorem twinCount_eq (hhash : HexDigests host) {rows : List TransactionFields}
    (hone : OneAccount rows) (hbases : ∀ row ∈ rows, ∃ base, baseTransactionId host row = .ok base)
    {row : TransactionFields} (hrow : row ∈ rows) {base : String}
    (hbase : baseTransactionId host row = .ok base) :
    twinCount host rows base = rows.countP (twin host · row) := by
  unfold twinCount
  apply List.countP_congr
  intro other hother
  rw [decide_eq_true_eq, ← hbase, base_eq_iff_twin hhash hone hbases hother hrow]

/-! ## Accepted scrapes -/

/-- A batch of one account is numbered exactly when each of its rows can be
labelled. -/
theorem numbered_iff_labelled (hhash : HexDigests host) {rows : List TransactionFields}
    (hone : OneAccount rows) :
    (∀ entry ∈ rows.zipIdx, ∃ row, numberedRow host rows entry = .ok row) ↔
      ∀ row ∈ rows, Labelled host rows row := by
  have hplace : ∀ row ∈ rows, ∃ entry ∈ rows.zipIdx, entry.1 = row := by
    intro row hrow
    obtain ⟨place, hget⟩ := List.mem_iff_getElem?.mp hrow
    exact ⟨(row, place), List.mk_mem_zipIdx_iff_getElem?.mpr hget, rfl⟩
  constructor
  · intro hnumbered row hrow
    have hbases : ∀ row ∈ rows, ∃ base, baseTransactionId host row = .ok base := by
      intro row hrow
      obtain ⟨entry, hentry, rfl⟩ := hplace row hrow
      obtain ⟨base, hbase, -⟩ := numberedRow_ok_iff.mp (hnumbered entry hentry)
      exact ⟨base, hbase⟩
    obtain ⟨base, hbase⟩ := hbases row hrow
    refine ⟨encodable_of_base hbase, ?_⟩
    intro k hk
    rw [← twinCount_eq hhash hone hbases hrow hbase] at hk
    obtain ⟨entry, hentry, hsame, rfl⟩ := exists_twin hk
    obtain ⟨hencodable, hwithin⟩ := (numberedRow_ok_iff_within hhash).mp (hnumbered entry hentry)
    have htext : baseIdText host row = baseIdText host entry.1 :=
      (base_eq_text hhash hbase).symm.trans (base_eq_text hhash hsame)
    rw [htext]
    exact Nat.le_of_not_lt fun hlong => hwithin ⟨hencodable, hlong⟩
  · intro hlabelled
    have hbases : ∀ row ∈ rows, ∃ base, baseTransactionId host row = .ok base := by
      intro row hrow
      obtain ⟨hencodable, hlengths⟩ := hlabelled row hrow
      have hself : 0 < rows.countP (twin host · row) := by
        rw [List.countP_pos_iff]
        exact ⟨row, hrow, by simp [twin]⟩
      have hbaseLength : jsLength (baseIdText host row) ≤ maxIdLength :=
        (jsLength_le_ordinalId _ 1).trans (hlengths 0 hself)
      have haccountLength := (@jsLength_account_le host row).trans hbaseLength
      refine ⟨baseIdText host row, ?_⟩
      rw [hencodable.baseTransactionId_eq hhash, if_neg (Nat.not_lt.mpr haccountLength),
        if_neg (Nat.not_lt.mpr hbaseLength)]
    intro entry hentry
    have hrow := List.fst_mem_of_mem_zipIdx hentry
    obtain ⟨hencodable, hlengths⟩ := hlabelled entry.1 hrow
    obtain ⟨base, hbase⟩ := hbases entry.1 hrow
    refine (numberedRow_ok_iff_within hhash).mpr ⟨hencodable, ?_⟩
    rintro ⟨-, hlong⟩
    have hlength := hlengths _ (by
      rw [← twinCount_eq hhash hone hbases hrow hbase]
      exact earlierTwins_lt hentry hbase)
    omega

/-- A scrape is identified exactly when it is acceptable. -/
theorem identifiable_iff_acceptable (hhash : HexDigests host) {input : NormalizeInput} :
    Identifiable host input ↔ AcceptableScrape host input := by
  constructor
  · rintro ⟨batches, hbatches, hnumbered⟩
    exact ⟨batches, hbatches, fun rows hrows =>
      (numbered_iff_labelled hhash (oneAccount_of_prepared hbatches hrows)).mp (hnumbered rows hrows)⟩
  · rintro ⟨batches, hbatches, hlabelled⟩
    exact ⟨batches, hbatches, fun rows hrows =>
      (numbered_iff_labelled hhash (oneAccount_of_prepared hbatches hrows)).mpr
        (hlabelled rows hrows)⟩

/-- The numbers of the copies of an identified scrape are their ranks among the
twins. -/
theorem twinNumbers_eq (hhash : HexDigests host) {input : NormalizeInput}
    (h : Identifiable host input) (account : String) (key : ReportedFields) :
    twinNumbers host input account key = copyRanks host input account key := by
  obtain ⟨batches, hbatches, hnumbered⟩ := h
  unfold twinNumbers copyRanks
  rw [hbatches]
  dsimp only
  rw [List.flatMap_def, List.flatMap_def]
  refine congrArg List.flatten (List.map_congr_left fun rows hrows => ?_)
  unfold copyNumbers
  apply List.map_congr_left
  intro entry hentry
  refine earlierTwins_eq hhash (oneAccount_of_prepared hbatches hrows) ?_
    (List.mem_of_mem_filter hentry)
  intro row hrow
  obtain ⟨place, hget⟩ := List.mem_iff_getElem?.mp hrow
  obtain ⟨base, hbase, -⟩ := numberedRow_ok_iff.mp
    (hnumbered rows hrows (row, place) (List.mk_mem_zipIdx_iff_getElem?.mpr hget))
  exact ⟨base, hbase⟩

end

/-- **When a row keeps its ids.**  For a later scrape of the same setup, a
posted source row keeps its ids exactly when both scrapes are acceptable, and
the numbers of twins that are charged before its copies, or on the same day and
listed before them, are nested. -/
theorem keepsIds_iff (host : Host) (hhash : HexDigests host) (input : NormalizeInput)
    (laterResult : ScraperScrapingResult) (laterAt : Instant) (account : String)
    (key : ReportedFields) :
    KeepsIds host input { input with result := laterResult, scrapedAt := laterAt } account key ↔
      AcceptableScrape host input ∧
      AcceptableScrape host { input with result := laterResult, scrapedAt := laterAt } ∧
      Nested (copyRanks host input account key)
        (copyRanks host { input with result := laterResult, scrapedAt := laterAt } account key) := by
  rw [keepsIds_iff_numbers, ← identifiable_iff_acceptable hhash,
    ← identifiable_iff_acceptable hhash]
  refine and_congr_right fun hinput => and_congr_right fun hlater => ?_
  rw [twinNumbers_eq hhash hinput, twinNumbers_eq hhash hlater]

/-- **A row without other twins keeps its ids.** -/
theorem keepsIds_of_onlyCopies (host : Host) (hhash : HexDigests host) (input : NormalizeInput)
    (laterResult : ScraperScrapingResult) (laterAt : Instant) (account : String)
    (key : ReportedFields) (hinput : AcceptableScrape host input)
    (hlater : AcceptableScrape host { input with result := laterResult, scrapedAt := laterAt })
    (hcopies : OnlyCopies host input account key)
    (hcopiesLater : OnlyCopies host { input with result := laterResult, scrapedAt := laterAt }
      account key) :
    KeepsIds host input { input with result := laterResult, scrapedAt := laterAt } account key :=
  (keepsIds_iff_numbers host input laterResult laterAt account key).mpr
    ⟨(identifiable_iff_acceptable hhash).mpr hinput, (identifiable_iff_acceptable hhash).mpr hlater,
      nested_of_onlyCopies hcopies hcopiesLater⟩

/-! ## A pending twin -/

/-- A withdrawal as the bank reports it. -/
def withdrawal (status : String) : Json :=
  .obj [("date", .str "2026-01-05T00:00:00"), ("processedDate", .str "2026-01-05T00:00:00"),
    ("identifier", .num 51), ("description", .str "ATM"), ("memo", .str ""),
    ("originalAmount", .num (-200)), ("originalCurrency", .str "ILS"), ("chargedAmount", .num (-200)),
    ("status", .str status)]

/-- A scrape of one checking account. -/
def checkingScrape (rows : List Json) : NormalizeInput where
  company := "hapoalim"
  config := ⟨true, "Hapoalim", .checking, none, none, true, .purchase, false⟩
  result := ⟨[⟨"00-000-000001", rows, .obj [("balance", .num 1000)]⟩]⟩
  scrapedAt := 0
  timezone := "Asia/Jerusalem"
  defaultCurrency := "ILS"

def withdrawalKey : ReportedFields :=
  ⟨some (.str "2026-01-05T00:00:00"), some (.str "2026-01-05T00:00:00"), -200, some (.str "ATM"),
    some (.str ""), some (.num 51), none⟩

/-- A host with the digest of the withdrawal. -/
def withdrawalHost : Host :=
  { asciiHost with
    sha256 := fun text =>
      if text = "2026-01-05|-200.00|ATM||/" then
        "a322434b0e43a5754cbfe0ffa80fbd81a43d076c4b4173ab0cfd61341ec6580a"
      else "" }

theorem hexDigests_withdrawalHost : HexDigests withdrawalHost := by
  intro text c hc
  change c ∈ (if text = "2026-01-05|-200.00|ATM||/" then
      "a322434b0e43a5754cbfe0ffa80fbd81a43d076c4b4173ab0cfd61341ec6580a"
    else "").toList at hc
  have hdigest : "a322434b0e43a5754cbfe0ffa80fbd81a43d076c4b4173ab0cfd61341ec6580a".toList.all isHashChar =
      true := by decide +kernel
  by_cases hwithdrawal : text = "2026-01-05|-200.00|ATM||/"
  · rw [if_pos hwithdrawal] at hc
    exact List.all_eq_true.mp hdigest c hc
  · rw [if_neg hwithdrawal] at hc
    cases hc

def idsOf (input : NormalizeInput) : Except BridgeError (List String) :=
  (normalizeScrapeResult withdrawalHost input).map fun result =>
    postedIds result "hapoalim:00-000-000001" withdrawalKey

/-- A withdrawal keeps its id when a pending one behind it is gone. -/
theorem withdrawal_keeps_id :
    KeepsIds withdrawalHost (checkingScrape [withdrawal "completed", withdrawal "pending"])
      (checkingScrape [withdrawal "completed"]) "hapoalim:00-000-000001" withdrawalKey := by
  refine (keepsIds_iff withdrawalHost hexDigests_withdrawalHost
    (checkingScrape [withdrawal "completed", withdrawal "pending"])
    (checkingScrape [withdrawal "completed"]).result 0 _ _).mpr ⟨?_, ?_, ?_⟩
  · decide +kernel
  · decide +kernel
  · refine .inl ?_
    decide +kernel

/-- Two withdrawals of a day, one of them pending; the pending one is gone from
the next scrape.  The posted one was the second of its base id and becomes the
first. -/
theorem pending_twin_moves_id :
    idsOf (checkingScrape [withdrawal "pending", withdrawal "completed"]) =
      .ok ["hapoalim:00-000-000001:51:a322434b0e43a575#2"] ∧
    idsOf (checkingScrape [withdrawal "completed"]) =
      .ok ["hapoalim:00-000-000001:51:a322434b0e43a575"] ∧
    ¬KeepsIds withdrawalHost (checkingScrape [withdrawal "pending", withdrawal "completed"])
      (checkingScrape [withdrawal "completed"]) "hapoalim:00-000-000001" withdrawalKey := by
  have hfirst : idsOf (checkingScrape [withdrawal "pending", withdrawal "completed"]) =
      .ok ["hapoalim:00-000-000001:51:a322434b0e43a575#2"] := by decide +kernel
  have hsecond : idsOf (checkingScrape [withdrawal "completed"]) =
      .ok ["hapoalim:00-000-000001:51:a322434b0e43a575"] := by decide +kernel
  refine ⟨hfirst, hsecond, ?_⟩
  intro h
  obtain ⟨before, after, hbefore, hafter, hnested⟩ := h
  unfold idsOf at hfirst hsecond
  rw [hbefore] at hfirst
  rw [hafter] at hsecond
  have hids : postedIds before "hapoalim:00-000-000001" withdrawalKey =
      ["hapoalim:00-000-000001:51:a322434b0e43a575#2"] := Except.ok.inj hfirst
  have hlaterIds : postedIds after "hapoalim:00-000-000001" withdrawalKey =
      ["hapoalim:00-000-000001:51:a322434b0e43a575"] := Except.ok.inj hsecond
  rw [hids, hlaterIds] at hnested
  revert hnested
  decide +kernel

end SimplefinBridge
