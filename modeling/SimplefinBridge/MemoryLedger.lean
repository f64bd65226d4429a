import SimplefinBridge.Coalesce

/-!
# The in-memory ledger

`createMemoryLedger` is the fake that the tests of the scheduler run on; its
header says it mirrors the SQLite ledger.  Both stores are driven here with
the same calls.  They resolve archived installments over different rows (the
fake over all of them, SQLite over those of one company), and an alias is
refreshed differently (the fake overwrites the whole row with the one read
when the batch began, SQLite updates the refreshable columns); neither shows.
What does show is the id under which a difference of an aliased row is logged,
and a text that a column of the database does not keep.
-/

namespace SimplefinBridge

/-- The maps of `createMemoryLedger` that the two calls touch. -/
structure MemoryLedger where
  transactions : KeyedTable LedgerTransaction LedgerTransaction.id
  syntheticPayments : List SyntheticPayment
  anomalies : List Anomaly

/-- A new ledger in memory. -/
def createMemoryLedger : MemoryLedger where
  transactions := .empty
  syntheticPayments := []
  anomalies := []

namespace MemoryLedger

section
variable (host : Host)

/-- The frozen fields of the fake, reported under the id of the incoming row. -/
def frozenAnomalies (existing row : LedgerTransaction) : List Anomaly :=
  let frozen : List (AnomalyField × JsText × JsText) :=
    [(.amount, host.toFixed2 existing.amount, host.toFixed2 row.amount),
     (.bookedDate, existing.bookedDate,
       (if existing.id = row.id then row else existing).bookedDate),
     (.description, existing.description, row.description)]
  (frozen.filter fun f => f.2.1 ≠ f.2.2).map fun f =>
    { transactionId := row.id, field := f.1, previous := f.2.1, incoming := f.2.2,
      seenAt := row.lastSeen }

/-- `{...existing, status, postedSeenAt, chargeDate, category, memo, raw, lastSeen}` -/
def refreshed (existing row : LedgerTransaction) : LedgerTransaction :=
  { existing with
    status := refreshedStatus existing row
    postedSeenAt := existing.postedSeenAt.or
      (if refreshedStatus existing row = existing.status then none else some row.lastSeen)
    chargeDate := row.chargeDate.or existing.chargeDate
    category := row.category.or existing.category
    memo := row.memo.or existing.memo
    raw := preserveArchiveRaw host existing row
    lastSeen := row.lastSeen }

/-- One iteration of the loop over the batch. -/
def upsertRow (aliases : List (String × LedgerTransaction))
    (state : UpsertSummary × KeyedTable LedgerTransaction LedgerTransaction.id)
    (row : LedgerTransaction) :
    UpsertSummary × KeyedTable LedgerTransaction LedgerTransaction.id :=
  let (summary, transactions) := state
  match (transactions.find row.id).or (aliases.lookup row.id) with
  | none => ({ summary with inserted := summary.inserted + 1 }, transactions.put row)
  | some existing =>
      let anomalies := summary.anomalies ++ frozenAnomalies host existing row
      (if refreshChanges existing row then
          { summary with anomalies, updated := summary.updated + 1 }
        else { summary with anomalies, unchanged := summary.unchanged + 1 },
        transactions.put (refreshed host existing row))

/-- The aliases of a batch, over all stored rows. -/
def aliases (rows : List LedgerTransaction) (timezone : Option String) (ledger : MemoryLedger) :
    Except BridgeError (List (String × LedgerTransaction)) :=
  match timezone with
  | none => .ok []
  | some timezone => resolveArchiveInstallments host rows ledger.transactions.rows timezone

/-- `upsertTransactions` of memory.ts -/
def upsertTransactions (rows : List LedgerTransaction) (timezone : Option String)
    (ledger : MemoryLedger) : Except BridgeError (UpsertSummary × MemoryLedger) :=
  match ledger.aliases host rows timezone with
  | .error e => .error e
  | .ok aliases =>
      let (summary, transactions) :=
        Runs.run (upsertRow host aliases) ({}, ledger.transactions) rows
      .ok (summary,
        { ledger with transactions, anomalies := ledger.anomalies ++ summary.anomalies })

/-- `{...canonical, chargeDate, category, memo, raw, lastSeen}` -/
def merged (canonical duplicate : LedgerTransaction) : LedgerTransaction :=
  { canonical with
    chargeDate := duplicate.chargeDate.or canonical.chargeDate
    category := duplicate.category.or canonical.category
    memo := duplicate.memo.or canonical.memo
    raw := preserveArchiveRaw host canonical duplicate
    lastSeen := duplicate.lastSeen }

/-- The duplicate is written into the canonical row and dropped. -/
def coalescePair (transactions : KeyedTable LedgerTransaction LedgerTransaction.id)
    (pair : ReviewedPair) : KeyedTable LedgerTransaction LedgerTransaction.id :=
  (transactions.put (merged host pair.canonical pair.duplicate)).erase pair.duplicate.id

/-- A synthetic payment or an anomaly refers to the duplicate. -/
def hasDependents (ledger : MemoryLedger) (duplicate : LedgerTransaction) : Bool :=
  (ledger.syntheticPayments.any fun payment => payment.transactionId = duplicate.id) ||
    ledger.anomalies.any fun anomaly => anomaly.transactionId = duplicate.id

/-- `coalesceArchiveInstallments` of memory.ts -/
def coalesceArchiveInstallments (pairs : List ArchiveInstallmentPair) (timezone : String)
    (dryRun : Bool) (ledger : MemoryLedger) : Except BridgeError (CoalesceSummary × MemoryLedger) :=
  match validateArchiveInstallmentPairs host pairs ledger.transactions.rows timezone with
  | .error e => .error e
  | .ok validated =>
      if validated.any fun pair => ledger.hasDependents pair.duplicate then
        .error .installmentDependents
      else
        .ok (⟨validated.length, if dryRun then 0 else validated.length⟩,
          if dryRun then ledger
          else { ledger with
            transactions := Runs.run (coalescePair host) ledger.transactions validated })

end

end MemoryLedger

/-! ## The same calls on both stores -/

/-- A call that both stores understand. -/
inductive StoreCall
  | upsertTransactions (rows : List LedgerTransaction) (timezone : Option String)
  | coalesceArchiveInstallments (pairs : List ArchiveInstallmentPair) (timezone : String)
      (dryRun : Bool)

/-- What a call answers. -/
inductive StoreAnswer
  | threw
  | upserted (summary : UpsertSummary)
  | coalesced (summary : CoalesceSummary)
  deriving DecidableEq

/-- The rows a call brings. -/
def StoreCall.rows : StoreCall → List LedgerTransaction
  | .upsertTransactions rows _ => rows
  | .coalesceArchiveInstallments _ _ _ => []

section
variable (host : Host)

/-- A call on the fake. -/
def memoryCall (ledger : MemoryLedger) : StoreCall → StoreAnswer × MemoryLedger
  | .upsertTransactions rows timezone =>
      match ledger.upsertTransactions host rows timezone with
      | .ok (summary, ledger') => (.upserted summary, ledger')
      | .error _ => (.threw, ledger)
  | .coalesceArchiveInstallments pairs timezone dryRun =>
      match ledger.coalesceArchiveInstallments host pairs timezone dryRun with
      | .ok (summary, ledger') => (.coalesced summary, ledger')
      | .error _ => (.threw, ledger)

/-- A call on the SQLite ledger, every statement accepted. -/
def sqliteCall (ledger : Ledger) : StoreCall → StoreAnswer × Ledger
  | .upsertTransactions rows timezone =>
      match upsertTransactions host rows timezone ⟨ledger, []⟩ with
      | .ok summary s => (.upserted summary, s.ledger)
      | .error _ s => (.threw, s.ledger)
  | .coalesceArchiveInstallments pairs timezone dryRun =>
      match coalesceArchiveInstallments host pairs timezone dryRun ⟨ledger, []⟩ with
      | .ok summary s => (.coalesced summary, s.ledger)
      | .error _ s => (.threw, s.ledger)

/-- Both stores after a call. -/
def bothCall (stores : MemoryLedger × Ledger) (call : StoreCall) : MemoryLedger × Ledger :=
  ((memoryCall host stores.1 call).2, (sqliteCall host stores.2 call).2)

/-- The stores answer alike, and hold equal rows by id and equal anomaly logs. -/
def Mirrors (before : MemoryLedger × Ledger) (call : StoreCall) (after : MemoryLedger × Ledger) :
    Prop :=
  (memoryCall host before.1 call).1 = (sqliteCall host before.2 call).1 ∧
    (∀ id, after.1.transactions.find id = after.2.transactions.find id) ∧
    after.1.anomalies = after.2.anomalies

/-- No row of an accepted batch differs from the archived row its id stands
for in the amount as reported or in the description. -/
def AliasesAgree (before : MemoryLedger × Ledger) (call : StoreCall)
    (_after : MemoryLedger × Ledger) : Prop :=
  match call with
  | .upsertTransactions rows timezone =>
      ∀ aliases, batchAliases host rows timezone before.2 = .ok aliases →
        ∀ row ∈ rows, ∀ canonical, aliases.lookup row.id = some canonical →
          canonical.id ≠ row.id →
          host.toFixed2 canonical.amount = host.toFixed2 row.amount ∧
            canonical.description = row.description
  | .coalesceArchiveInstallments _ _ _ => True

/-- The texts of a row that a refresh compares, logs or writes are kept by the database. -/
structure RefreshKept (row : LedgerTransaction) : Prop where
  compared : ComparedKept row
  memo : row.memo.map JsText.stored = row.memo
  category : row.category.map JsText.stored = row.category

/-- The database keeps the texts of a batch that resolves: those that a refresh touches, and every
text of the rows the batch inserts. -/
def TextsKept (before : MemoryLedger × Ledger) (call : StoreCall)
    (_after : MemoryLedger × Ledger) : Prop :=
  match call with
  | .upsertTransactions rows timezone =>
      ∀ aliases, batchAliases host rows timezone before.2 = .ok aliases →
        (∀ row ∈ rows, RefreshKept row) ∧
          ∀ origin, rows.find? (fun row => row.id = origin.id) = some origin →
            before.2.transactions.find origin.id = none → aliases.lookup origin.id = none →
            origin.stored = origin
  | .coalesceArchiveInstallments _ _ _ => True

end

section
variable {host : Host}

/-! ## Resolving over all rows and over those of one company -/

/-- A match compares the company of both rows. -/
theorem incoming_company_of_matches {archive incoming : LedgerTransaction} {timezone : String}
    (h : matchesArchiveInstallment host archive incoming timezone = true) :
    incoming.company = "visaCal" := by
  unfold matchesArchiveInstallment at h
  have hsame := (Bool.and_eq_true_iff.mp h).1
  simp only [sameInstallment, Bool.and_eq_true, decide_eq_true_eq] at hsame
  obtain ⟨⟨⟨⟨⟨⟨⟨⟨⟨⟨⟨⟨⟨⟨⟨⟨⟨⟨-, hcompany⟩, -⟩, -⟩, -⟩, -⟩, -⟩, -⟩, -⟩, -⟩, -⟩, -⟩,
    -⟩, -⟩, -⟩, -⟩, -⟩, -⟩, -⟩ := hsame
  exact hcompany

/-- Rows of other companies are never candidates. -/
theorem findArchiveInstallment_company (rows : List LedgerTransaction)
    (incoming : LedgerTransaction) (timezone : String) (p : LedgerTransaction → Bool) :
    findArchiveInstallment host ((rows.filter fun row => row.company = "visaCal").filter p)
        incoming timezone =
      findArchiveInstallment host (rows.filter p) incoming timezone := by
  unfold findArchiveInstallment
  have hsame : ((rows.filter fun row => row.company = "visaCal").filter p).filter
        (fun row => row.id ≠ incoming.id && matchesArchiveInstallment host row incoming timezone) =
      (rows.filter p).filter
        (fun row => row.id ≠ incoming.id && matchesArchiveInstallment host row incoming timezone) := by
    simp only [List.filter_filter]
    apply List.filter_congr
    intro row _
    cases hmatch : matchesArchiveInstallment host row incoming timezone with
    | false => simp
    | true => simp [(company_of_matches hmatch).1]
  rw [hsame]

/-- Only visaCal archives installments. -/
theorem findArchiveInstallment_other {rows : List LedgerTransaction}
    {incoming : LedgerTransaction} {timezone : String} (h : incoming.company ≠ "visaCal") :
    findArchiveInstallment host rows incoming timezone = .ok none := by
  unfold findArchiveInstallment
  have hnone : rows.filter (fun row => row.id ≠ incoming.id &&
      matchesArchiveInstallment host row incoming timezone) = [] := by
    rw [List.filter_eq_nil_iff]
    intro row _ hrow
    rw [Bool.and_eq_true] at hrow
    exact h (incoming_company_of_matches hrow.2)
  rw [hnone]

/-- Every stored row has the company its id has in all calls. -/
def CompanyById (companyOf : String → CompanyId) (rows : List LedgerTransaction) : Prop :=
  ∀ row ∈ rows, row.company = companyOf row.id

section
variable {companyOf : String → CompanyId} {stored : List LedgerTransaction}
  {incoming : LedgerTransaction} {timezone : String}

/-- An incoming row of the archived company resolves alike. -/
theorem canonicalRow_company (hstored : CompanyById companyOf stored)
    (hincoming : incoming.company = companyOf incoming.id)
    (hcompany : incoming.company = "visaCal") :
    canonicalRow host (stored.filter fun row => row.company = "visaCal") timezone incoming =
      canonicalRow host stored timezone incoming := by
  have hfind : (stored.filter fun row => row.company = "visaCal").find?
        (fun row => row.id = incoming.id) =
      stored.find? fun row => row.id = incoming.id := by
    rw [← List.head?_filter, ← List.head?_filter, List.filter_filter]
    congr 1
    apply List.filter_congr
    intro row hrow
    by_cases hid : row.id = incoming.id
    · have hrowCompany : row.company = "visaCal" := by
        rw [hstored row hrow, hid, ← hincoming, hcompany]
      simp [hid, hrowCompany]
    · simp [hid]
  unfold canonicalRow
  rw [hfind]
  cases stored.find? fun row => row.id = incoming.id with
  | some existing => rfl
  | none =>
      dsimp only
      rw [findArchiveInstallment_company]

/-- An incoming row of another company has no archived row; only the fake
finds the row stored under its id. -/
theorem canonicalRow_other (hstored : CompanyById companyOf stored)
    (hincoming : incoming.company = companyOf incoming.id)
    (hcompany : incoming.company ≠ "visaCal") :
    canonicalRow host (stored.filter fun row => row.company = "visaCal") timezone incoming =
        .ok none ∧
      canonicalRow host stored timezone incoming =
        .ok (stored.find? fun row => row.id = incoming.id) := by
  constructor
  · have hfind : (stored.filter fun row => row.company = "visaCal").find?
        (fun row => row.id = incoming.id) = none := by
      rw [List.find?_eq_none]
      intro row hrow hid
      obtain ⟨hrow, hrowCompany⟩ := List.mem_filter.mp hrow
      rw [decide_eq_true_eq] at hid hrowCompany
      apply hcompany
      rw [hincoming, ← hid, ← hstored row hrow, hrowCompany]
    unfold canonicalRow
    rw [hfind]
    exact findArchiveInstallment_other hcompany
  · unfold canonicalRow
    cases stored.find? fun row => row.id = incoming.id with
    | some existing => rfl
    | none => exact findArchiveInstallment_other hcompany

end

/-- The maps of both stores for rows of a batch: alike for ids of the archived
company; for any other id SQLite has no entry and the fake at most the row
stored under that id. -/
structure SameAliases (companyOf : String → CompanyId) (stored : List LedgerTransaction)
    (sqlite memory : Aliases) : Prop where
  archived : ∀ id, companyOf id = "visaCal" →
    memory.resolved.lookup id = sqlite.resolved.lookup id
  other : ∀ id, companyOf id ≠ "visaCal" → sqlite.resolved.lookup id = none ∧
    ∀ row, memory.resolved.lookup id = some row → row ∈ stored ∧ row.id = id
  claimed : ∀ id, companyOf id = "visaCal" →
    memory.claimed.lookup id = sqlite.claimed.lookup id
  own : ∀ id, companyOf id ≠ "visaCal" → ∀ claimant, memory.claimed.lookup id = some claimant →
    claimant = id

/-- The first entry, or the others. -/
theorem lookup_cons_if {β : Type} (k key : String) (value : β) (entries : List (String × β)) :
    List.lookup k ((key, value) :: entries) = if k = key then some value else entries.lookup k := by
  rw [List.lookup_cons]
  by_cases h : k = key
  · simp [h]
  · simp [h, beq_false_of_ne h]

section
variable {companyOf : String → CompanyId} {stored : List LedgerTransaction} {timezone : String}

/-- **One row.**  Both stores refuse it, or both go on alike. -/
theorem alike_resolveRow {sqlite memory : Aliases} {incoming : LedgerTransaction}
    (hstored : CompanyById companyOf stored)
    (hincoming : incoming.company = companyOf incoming.id)
    (h : SameAliases companyOf stored sqlite memory) :
    Transactional.Alike (SameAliases companyOf stored)
      (resolveRow host (stored.filter fun row => row.company = "visaCal") timezone sqlite incoming)
      (resolveRow host stored timezone memory incoming) := by
  unfold resolveRow
  by_cases hcompany : incoming.company = "visaCal"
  · rw [canonicalRow_company hstored hincoming hcompany]
    cases hcanonical : canonicalRow host stored timezone incoming with
    | error e => exact Transactional.Alike.threw e e
    | ok found =>
        cases found with
        | none => exact Transactional.Alike.returned h
        | some canonical =>
            dsimp only
            have hrowCompany : companyOf canonical.id = "visaCal" := by
              obtain ⟨hmem, hown | ⟨-, hmatches, -⟩⟩ := canonicalRow_ok_some hcanonical
              · rw [hown, ← hincoming, hcompany]
              · rw [← hstored canonical hmem]
                exact (company_of_matches hmatches).1
            rw [h.claimed _ hrowCompany]
            split_ifs
            · exact Transactional.Alike.threw _ _
            · apply Transactional.Alike.returned
              refine ⟨?_, ?_, ?_, ?_⟩ <;> intro id hid
              · rw [lookup_cons_if, lookup_cons_if, h.archived id hid]
              · have hne : id ≠ incoming.id := by
                  intro heq
                  rw [heq, ← hincoming] at hid
                  exact hid hcompany
                rw [lookup_cons_if, lookup_cons_if, if_neg hne, if_neg hne]
                exact h.other id hid
              · rw [lookup_cons_if, lookup_cons_if, h.claimed id hid]
              · have hne : id ≠ canonical.id := by
                  intro heq
                  rw [heq] at hid
                  exact hid hrowCompany
                rw [lookup_cons_if, if_neg hne]
                exact h.own id hid
  · obtain ⟨hnone, hall⟩ := canonicalRow_other hstored
      hincoming hcompany
    rw [hnone, hall]
    have hother : companyOf incoming.id ≠ "visaCal" := by rwa [← hincoming]
    cases hfind : stored.find? fun row => row.id = incoming.id with
    | none => exact Transactional.Alike.returned h
    | some existing =>
        dsimp only
        obtain ⟨hmem, hid⟩ := find?_id_eq_some hfind
        have hunclaimed : (memory.claimed.lookup existing.id).any (· ≠ incoming.id) = false := by
          cases hclaim : memory.claimed.lookup existing.id with
          | none => rfl
          | some claimant =>
              rw [hid] at hclaim
              simp [h.own _ hother claimant hclaim]
        rw [hunclaimed]
        apply Transactional.Alike.returned
        refine ⟨?_, ?_, ?_, ?_⟩ <;> intro id hcompanyId
        · have hne : id ≠ incoming.id := fun heq => hother (heq ▸ hcompanyId)
          rw [lookup_cons_if, if_neg hne]
          exact h.archived id hcompanyId
        · refine ⟨(h.other id hcompanyId).1, ?_⟩
          intro row hrow
          rw [lookup_cons_if] at hrow
          split_ifs at hrow with hsame
          · obtain rfl := Option.some.inj hrow
            exact ⟨hmem, hid.trans hsame.symm⟩
          · exact (h.other id hcompanyId).2 row hrow
        · have hne : id ≠ existing.id := fun heq => hother (hid ▸ heq ▸ hcompanyId)
          rw [lookup_cons_if, if_neg hne]
          exact h.claimed id hcompanyId
        · intro claimant hclaim
          rw [lookup_cons_if] at hclaim
          split_ifs at hclaim with hsame
          · obtain rfl := Option.some.inj hclaim
            exact (hsame.trans hid).symm
          · exact h.own id hcompanyId claimant hclaim

/-- What resolving a batch over all rows and over the archived company's rows
has in common. -/
theorem alike_resolveArchiveInstallments {rows : List LedgerTransaction}
    (hstored : CompanyById companyOf stored) (hrows : CompanyById companyOf rows) :
    Transactional.Alike
      (fun sqlite memory : List (String × LedgerTransaction) =>
        (∀ id, companyOf id = "visaCal" → memory.lookup id = sqlite.lookup id) ∧
        ∀ id, companyOf id ≠ "visaCal" → sqlite.lookup id = none ∧
          ∀ row, memory.lookup id = some row → row ∈ stored ∧ row.id = id)
      (resolveArchiveInstallments host rows (stored.filter fun row => row.company = "visaCal")
        timezone)
      (resolveArchiveInstallments host rows stored timezone) := by
  have hstart : SameAliases companyOf stored {} {} :=
    ⟨fun _ _ => rfl, fun _ _ => ⟨rfl, fun _ h => by cases h⟩, fun _ _ => rfl,
      fun _ _ _ h => by cases h⟩
  have hloop : Transactional.Alike (SameAliases companyOf stored)
      (rows.foldlM (resolveRow host (stored.filter fun row => row.company = "visaCal") timezone) {})
      (rows.foldlM (resolveRow host stored timezone) {}) := by
    refine Transactional.alike_foldlM ?_ hstart
    intro row hrow sqlite memory h
    exact alike_resolveRow hstored (hrows row hrow) h
  unfold resolveArchiveInstallments
  generalize rows.foldlM (resolveRow host (stored.filter fun row => row.company = "visaCal")
    timezone) {} = sqlite at hloop ⊢
  generalize rows.foldlM (resolveRow host stored timezone) {} = memory at hloop ⊢
  cases hloop with
  | threw e e' => exact Transactional.Alike.threw e e'
  | returned h => exact Transactional.Alike.returned ⟨h.archived, h.other⟩

end

/-! ## One batch on both stores -/

/-- A row without the fields a refresh writes. -/
def LedgerTransaction.skeleton (row : LedgerTransaction) : LedgerTransaction :=
  { row with
    status := .posted
    chargeDate := none
    category := none
    memo := none
    raw := .null
    lastSeen := 0
    postedSeenAt := none }

/-- A stored row whose texts are kept. -/
structure RowKept (row : LedgerTransaction) : Prop where
  stored : row.stored = row
  bookedDate : JsText.Kept row.bookedDate

/-- The memo of a kept row comes back, -/
theorem RowKept.memo {row : LedgerTransaction} (h : RowKept row) :
    row.memo.map JsText.stored = row.memo := by
  change row.stored.memo = row.memo
  rw [h.stored]

/-- and so does its category, -/
theorem RowKept.category {row : LedgerTransaction} (h : RowKept row) :
    row.category.map JsText.stored = row.category := by
  change row.stored.category = row.category
  rw [h.stored]

/-- and all that is compared. -/
theorem RowKept.compared {row : LedgerTransaction} (h : RowKept row) : ComparedKept row := by
  refine ⟨?_, h.bookedDate⟩
  change row.stored.description = row.description
  rw [h.stored]

/-- The first of two kept texts that is there is kept. -/
theorem map_stored_or {a b : Option JsText} (ha : a.map JsText.stored = a)
    (hb : b.map JsText.stored = b) : (a.or b).map JsText.stored = a.or b := by
  cases a with
  | none => exact hb
  | some text => exact ha

/-- The fake overwrites the whole row, SQLite the refreshable columns of the
stored one: the same when the rest of the row is the same and the texts are kept. -/
theorem refreshedRow_eq_refreshed {stored existing row : LedgerTransaction}
    (h : stored.skeleton = existing.skeleton) (hexisting : RowKept existing)
    (hrow : RefreshKept row) :
    refreshedRow host stored existing row = MemoryLedger.refreshed host existing row := by
  have hmemo := map_stored_or hrow.memo hexisting.memo
  have hcategory := map_stored_or hrow.category hexisting.category
  calc refreshedRow host stored existing row
      = refreshedRow host stored.skeleton existing row := rfl
    _ = refreshedRow host existing existing row := by rw [h]; rfl
    _ = MemoryLedger.refreshed host existing row := by
        unfold refreshedRow
        rw [hmemo, hcategory]
        rfl

/-- A refresh with kept texts leaves a row with kept texts. -/
theorem RowKept.refreshed {existing row : LedgerTransaction} (hexisting : RowKept existing)
    (hrow : RefreshKept row) : RowKept (MemoryLedger.refreshed host existing row) where
  stored := by
    have hmemo := map_stored_or hrow.memo hexisting.memo
    have hcategory := map_stored_or hrow.category hexisting.category
    have hidentifier := congrArg (fun row : LedgerTransaction => row.identifier) hexisting.stored
    have hcurrency := congrArg (fun row : LedgerTransaction => row.currency) hexisting.stored
    have hdescription := congrArg (fun row : LedgerTransaction => row.description) hexisting.stored
    have horiginal := congrArg (fun row : LedgerTransaction => row.originalCurrency)
      hexisting.stored
    unfold MemoryLedger.refreshed LedgerTransaction.stored at *
    dsimp only at *
    rw [hmemo, hcategory, hidentifier, hcurrency, hdescription, horiginal]
  bookedDate := hexisting.bookedDate

/-- Both stores report the same differences, but the fake under the incoming
id and SQLite under the stored one. -/
theorem frozenAnomalies_eq_iff (existing row : LedgerTransaction) :
    (MemoryLedger.frozenAnomalies host existing row).length =
        (frozenFieldAnomalies host existing (aliasedIncoming existing row)).length ∧
      (MemoryLedger.frozenAnomalies host existing row =
          frozenFieldAnomalies host existing (aliasedIncoming existing row) ↔
        (existing.id ≠ row.id → host.toFixed2 existing.amount = host.toFixed2 row.amount ∧
          existing.description = row.description)) := by
  unfold MemoryLedger.frozenAnomalies frozenFieldAnomalies aliasedIncoming
  by_cases hid : existing.id = row.id
  · simp [hid]
  · have hid' : ¬ row.id = existing.id := fun h => hid h.symm
    by_cases hamount : host.toFixed2 existing.amount = host.toFixed2 row.amount <;>
    by_cases hdescription : existing.description = row.description <;>
    simp [hid, hid', hamount, hdescription]

/-- A row whose id stands for an archived row differs from it in nothing that
is reported. -/
def AliasAgrees (host : Host) (aliases : List (String × LedgerTransaction))
    (row : LedgerTransaction) : Prop :=
  ∀ canonical, aliases.lookup row.id = some canonical → canonical.id ≠ row.id →
    host.toFixed2 canonical.amount = host.toFixed2 row.amount ∧
      canonical.description = row.description

/-- What the aliases of both stores have in common, once a batch is resolved
against the rows of `start`. -/
structure BatchAliases (start : Ledger) (sqlite memory : List (String × LedgerTransaction)) :
    Prop where
  stored : ∀ id canonical, sqlite.lookup id = some canonical →
    canonical ∈ start.transactions.rows
  foreign : ∀ id canonical, sqlite.lookup id = some canonical → canonical.id ≠ id →
    start.transactions.find id = none
  fake : ∀ id, memory.lookup id = sqlite.lookup id ∨
    (sqlite.lookup id = none ∧
      ∀ row, memory.lookup id = some row → (start.transactions.find id).isSome)

/-- What holds of both stores after the rows `done` of a batch. -/
structure BothProgress (host : Host) (companyOf : String → CompanyId)
    (aliases : List (String × LedgerTransaction)) (start : Ledger)
    (done : List LedgerTransaction)
    (memory : UpsertSummary × KeyedTable LedgerTransaction LedgerTransaction.id)
    (sqlite : UpsertSummary × Ledger) : Prop where
  tables : sqlite.2 = { start with transactions := memory.2 }
  kept : ∀ row ∈ start.transactions.rows,
    ∃ row', memory.2.find row.id = some row' ∧ row'.skeleton = row.skeleton
  foreign : ∀ id canonical, aliases.lookup id = some canonical → canonical.id ≠ id →
    memory.2.find id = none
  company : CompanyById companyOf memory.2.rows
  known : ∀ row ∈ done, (memory.2.find row.id).isSome ∨ (aliases.lookup row.id).isSome
  rowsKept : ∀ row ∈ memory.2.rows, RowKept row
  logKept : sqlite.1.anomalies.map Anomaly.stored = sqlite.1.anomalies
  counts : memory.1.inserted = sqlite.1.inserted ∧ memory.1.updated = sqlite.1.updated ∧
    memory.1.unchanged = sqlite.1.unchanged
  lengths : memory.1.anomalies.length = sqlite.1.anomalies.length
  logs : memory.1.anomalies = sqlite.1.anomalies ↔ ∀ row ∈ done, AliasAgrees host aliases row

section
variable {companyOf : String → CompanyId} {start : Ledger} {sqliteAliases memoryAliases : List (String × LedgerTransaction)}
  {done : List LedgerTransaction} {row : LedgerTransaction}
  {memory : UpsertSummary × KeyedTable LedgerTransaction LedgerTransaction.id}
  {sqlite : UpsertSummary × Ledger}

/-- A row that was stored is stored in both. -/
theorem BothProgress.isSome_of_start
    (h : BothProgress host companyOf sqliteAliases start done memory sqlite) {id : String}
    (hstart : (start.transactions.find id).isSome) : (memory.2.find id).isSome := by
  obtain ⟨row, hrow⟩ := Option.isSome_iff_exists.mp hstart
  obtain ⟨row', hfind, -⟩ := h.kept row (KeyedTable.mem_of_find hrow)
  rw [KeyedTable.key_of_find hrow] at hfind
  rw [hfind]
  rfl

/-- Both stores refresh the same row, or both insert. -/
theorem BothProgress.same_existing
    (h : BothProgress host companyOf sqliteAliases start done memory sqlite)
    (haliases : BatchAliases start sqliteAliases memoryAliases) (id : String) :
    (memory.2.find id).or (memoryAliases.lookup id) =
      (memory.2.find id).or (sqliteAliases.lookup id) := by
  rcases haliases.fake id with hsame | ⟨hnone, hown⟩
  · rw [hsame]
  · rw [hnone]
    cases hlookup : memoryAliases.lookup id with
    | none => rfl
    | some own =>
        have hsome := h.isSome_of_start (hown own hlookup)
        obtain ⟨stored, hstored⟩ := Option.isSome_iff_exists.mp hsome
        rw [hstored]
        rfl

/-- **Insertion.**  A row that neither store knows. -/
theorem BothProgress.insert (h : BothProgress host companyOf sqliteAliases start done memory sqlite)
    (hrow : row.company = companyOf row.id) (hnone : memory.2.find row.id = none)
    (halias : sqliteAliases.lookup row.id = none) (hkept : RowKept row) :
    BothProgress host companyOf sqliteAliases start (done ++ [row])
      ({ memory.1 with inserted := memory.1.inserted + 1 }, memory.2.put row)
      ({ sqlite.1 with inserted := sqlite.1.inserted + 1 },
        { sqlite.2 with transactions := sqlite.2.transactions.put row.stored }) where
  tables := by rw [h.tables, hkept.stored]
  kept := by
    intro row₀ hrow₀
    obtain ⟨row', hfind, hskeleton⟩ := h.kept row₀ hrow₀
    have hne : row₀.id ≠ row.id := by
      intro heq
      rw [heq, hnone] at hfind
      cases hfind
    exact ⟨row', by rw [KeyedTable.find_put_other _ hne, hfind], hskeleton⟩
  foreign := by
    intro id canonical hlookup hforeign
    have hne : id ≠ row.id := by
      intro heq
      rw [heq, halias] at hlookup
      cases hlookup
    rw [KeyedTable.find_put_other _ hne]
    exact h.foreign id canonical hlookup hforeign
  company := by
    intro r hr
    rcases KeyedTable.mem_put.mp hr with rfl | ⟨hr, -⟩
    · exact hrow
    · exact h.company r hr
  known := by
    intro r hr
    rcases List.mem_append.mp hr with hr | hr
    · rcases h.known r hr with hsome | hsome
      · obtain ⟨stored, hstored⟩ := Option.isSome_iff_exists.mp hsome
        have hne : r.id ≠ row.id := by
          intro heq
          rw [heq, hnone] at hstored
          cases hstored
        exact .inl (by rw [KeyedTable.find_put_other _ hne]; exact hsome)
      · exact .inr hsome
    · obtain rfl := List.mem_singleton.mp hr
      exact .inl (by rw [KeyedTable.find_put_self]; rfl)
  rowsKept := by
    intro r hr
    rcases KeyedTable.mem_put.mp hr with rfl | ⟨hr, -⟩
    · exact hkept
    · exact h.rowsKept r hr
  logKept := h.logKept
  counts := ⟨by rw [h.counts.1], h.counts.2⟩
  lengths := h.lengths
  logs := by
    rw [h.logs]
    constructor
    · intro hdone r hr
      rcases List.mem_append.mp hr with hr | hr
      · exact hdone r hr
      · obtain rfl := List.mem_singleton.mp hr
        intro canonical hlookup
        rw [halias] at hlookup
        cases hlookup
    · exact fun hall r hr => hall r (List.mem_append_left _ hr)

/-- Where the row to refresh comes from, and that SQLite finds it stored with
the same skeleton. -/
theorem BothProgress.existing_cases
    (h : BothProgress host companyOf sqliteAliases start done memory sqlite)
    (haliases : BatchAliases start sqliteAliases memoryAliases) {existing : LedgerTransaction}
    (hexisting : (memory.2.find row.id).or (sqliteAliases.lookup row.id) = some existing)
    (hstart : ∀ row ∈ start.transactions.rows, RowKept row) :
    RowKept existing ∧
      (∃ stored, memory.2.find existing.id = some stored ∧ stored.skeleton = existing.skeleton) ∧
      ((existing.id = row.id ∧ ∀ canonical, sqliteAliases.lookup row.id = some canonical →
          canonical.id = row.id) ∨
        (existing.id ≠ row.id ∧ sqliteAliases.lookup row.id = some existing)) := by
  cases hown : memory.2.find row.id with
  | some own =>
      rw [hown] at hexisting
      obtain rfl := Option.some.inj hexisting
      have hid : own.id = row.id := KeyedTable.key_of_find hown
      refine ⟨h.rowsKept own (KeyedTable.mem_of_find hown), ⟨own, by rw [hid, hown], rfl⟩,
        Or.inl ⟨hid, ?_⟩⟩
      intro canonical hlookup
      by_contra hforeign
      rw [h.foreign _ _ hlookup hforeign] at hown
      cases hown
  | none =>
      rw [hown] at hexisting
      have hlookup : sqliteAliases.lookup row.id = some existing := hexisting
      obtain ⟨stored, hfind, hskeleton⟩ := h.kept existing (haliases.stored _ _ hlookup)
      refine ⟨hstart existing (haliases.stored _ _ hlookup), ⟨stored, hfind, hskeleton⟩,
        Or.inr ⟨?_, hlookup⟩⟩
      intro hid
      rw [hid, hown] at hfind
      cases hfind

/-- **Refresh.**  A row that both stores know. -/
theorem BothProgress.refresh (h : BothProgress host companyOf sqliteAliases start done memory sqlite)
    (haliases : BatchAliases start sqliteAliases memoryAliases) {existing : LedgerTransaction}
    (hexisting : (memory.2.find row.id).or (sqliteAliases.lookup row.id) = some existing)
    (hstart : ∀ row ∈ start.transactions.rows, RowKept row) (hrowKept : RefreshKept row)
    {counted counted' : UpsertSummary} (hcounts : counted.inserted = counted'.inserted ∧
      counted.updated = counted'.updated ∧ counted.unchanged = counted'.unchanged)
    (hmemory : counted.anomalies =
      memory.1.anomalies ++ MemoryLedger.frozenAnomalies host existing row)
    (hsqlite : counted'.anomalies =
      sqlite.1.anomalies ++ frozenFieldAnomalies host existing (aliasedIncoming existing row)) :
    BothProgress host companyOf sqliteAliases start (done ++ [row])
      (counted, memory.2.put (MemoryLedger.refreshed host existing row))
      (counted', sqlite.2.refresh host existing row) := by
  obtain ⟨hkept, ⟨stored, hstored, hskeleton⟩, hsource⟩ :=
    h.existing_cases haliases hexisting hstart
  obtain ⟨hlength, hchunk⟩ := @frozenAnomalies_eq_iff host existing row
  have hself : (memory.2.put (MemoryLedger.refreshed host existing row)).find existing.id =
      some (MemoryLedger.refreshed host existing row) := KeyedTable.find_put_self _ _
  have hother : ∀ id, id ≠ existing.id →
      (memory.2.put (MemoryLedger.refreshed host existing row)).find id = memory.2.find id :=
    fun id hne => KeyedTable.find_put_other _ hne
  refine ⟨?_, ?_, ?_, ?_, ?_, ?_, ?_, hcounts, ?_, ?_⟩
  · have hfind : sqlite.2.transactions.find existing.id = some stored := by
      rw [h.tables]
      exact hstored
    unfold Ledger.refresh
    rw [hfind]
    dsimp only
    rw [refreshedRow_eq_refreshed hskeleton hkept hrowKept, h.tables]
  · intro row₀ hrow₀
    obtain ⟨row', hfind, hsame⟩ := h.kept row₀ hrow₀
    by_cases hid : row₀.id = existing.id
    · refine ⟨_, by rw [hid]; exact hself, ?_⟩
      rw [hid, hstored] at hfind
      obtain rfl := Option.some.inj hfind
      exact hskeleton.symm.trans hsame
    · exact ⟨row', (hother _ hid).trans hfind, hsame⟩
  · intro id canonical hlookup hforeign
    have hnone := h.foreign id canonical hlookup hforeign
    have hne : id ≠ existing.id := by
      intro heq
      rw [heq, hstored] at hnone
      cases hnone
    exact (hother id hne).trans hnone
  · intro r hr
    rcases KeyedTable.mem_put.mp hr with rfl | ⟨hr, -⟩
    · have hcompany : existing.company = stored.company :=
        (congrArg (fun row : LedgerTransaction => row.company) hskeleton).symm
      have hstoredCompany := h.company stored (KeyedTable.mem_of_find hstored)
      rw [KeyedTable.key_of_find hstored] at hstoredCompany
      exact hcompany.trans hstoredCompany
    · exact h.company r hr
  · have hkeeps : ∀ id, (memory.2.find id).isSome →
        ((memory.2.put (MemoryLedger.refreshed host existing row)).find id).isSome := by
      intro id hsome
      by_cases hid : id = existing.id
      · rw [hid, hself]
        rfl
      · rw [hother id hid]
        exact hsome
    intro r hr
    rcases List.mem_append.mp hr with hr | hr
    · exact (h.known r hr).imp_left (hkeeps r.id)
    · rw [List.mem_singleton.mp hr]
      have hsome := congrArg Option.isSome hexisting
      rw [Option.isSome_or] at hsome
      exact (Bool.or_eq_true_iff.mp hsome).imp_left (hkeeps row.id)
  · intro r hr
    rcases KeyedTable.mem_put.mp hr with rfl | ⟨hr, -⟩
    · exact hkept.refreshed hrowKept
    · exact h.rowsKept r hr
  · dsimp only
    rw [hsqlite, frozenFieldAnomalies_eq_differences, List.map_append, h.logKept,
      map_stored_differences hkept.compared hrowKept.compared]
  · rw [hmemory, hsqlite, List.length_append, List.length_append, h.lengths, hlength]
  · have hrow : AliasAgrees host sqliteAliases row ↔
        (existing.id ≠ row.id → host.toFixed2 existing.amount = host.toFixed2 row.amount ∧
          existing.description = row.description) := by
      rcases hsource with ⟨hid, hown⟩ | ⟨hid, hlookup⟩
      · constructor
        · exact fun _ hne => absurd hid hne
        · intro _ canonical hlookup hforeign
          exact absurd (hown canonical hlookup) hforeign
      · constructor
        · exact fun hagrees hne => hagrees existing hlookup hne
        · intro hagrees canonical hlookup' hne
          rw [hlookup] at hlookup'
          obtain rfl := Option.some.inj hlookup'
          exact hagrees hne
    have hsplit : memory.1.anomalies ++ MemoryLedger.frozenAnomalies host existing row =
        sqlite.1.anomalies ++ frozenFieldAnomalies host existing (aliasedIncoming existing row) ↔
        memory.1.anomalies = sqlite.1.anomalies ∧
          MemoryLedger.frozenAnomalies host existing row =
            frozenFieldAnomalies host existing (aliasedIncoming existing row) := by
      constructor
      · exact fun heq => List.append_inj heq h.lengths
      · intro heq
        rw [heq.1, heq.2]
    dsimp only
    rw [hmemory, hsqlite, hsplit, h.logs, hchunk, ← hrow]
    simp [or_imp, forall_and]

/-- **One row.** -/
theorem BothProgress.step (h : BothProgress host companyOf sqliteAliases start done memory sqlite)
    (haliases : BatchAliases start sqliteAliases memoryAliases)
    (hrow : row.company = companyOf row.id)
    (hstart : ∀ row ∈ start.transactions.rows, RowKept row) (hrowKept : RefreshKept row)
    (hinserted : (done ++ [row]).find? (fun r => r.id = row.id) = some row →
      start.transactions.find row.id = none → sqliteAliases.lookup row.id = none →
      row.stored = row) :
    BothProgress host companyOf sqliteAliases start (done ++ [row])
      (MemoryLedger.upsertRow host memoryAliases memory row)
      (upsertStep host sqliteAliases sqlite row) := by
  have hfind : sqlite.2.transactions.find row.id = memory.2.find row.id := by rw [h.tables]
  unfold MemoryLedger.upsertRow upsertStep
  dsimp only
  rw [h.same_existing haliases, hfind]
  cases hexisting : (memory.2.find row.id).or (sqliteAliases.lookup row.id) with
  | none =>
      obtain ⟨hnone, halias⟩ := Option.or_eq_none_iff.mp hexisting
      have hfirst : (done ++ [row]).find? (fun r => r.id = row.id) = some row := by
        have hfresh : done.find? (fun r => r.id = row.id) = none := by
          rw [List.find?_eq_none]
          intro r hr hid
          rw [decide_eq_true_eq] at hid
          have hknown := h.known r hr
          rw [hid, hnone, halias] at hknown
          simp at hknown
        rw [List.find?_append, hfresh]
        simp
      have hunstored : start.transactions.find row.id = none := by
        rw [← Option.not_isSome_iff_eq_none]
        intro hsome
        have hstored := h.isSome_of_start hsome
        rw [hnone] at hstored
        cases hstored
      exact h.insert hrow hnone halias
        ⟨hinserted hfirst hunstored halias, hrowKept.compared.2⟩
  | some existing =>
      obtain ⟨hinserted, hupdated, hunchanged⟩ := h.counts
      apply h.refresh haliases hexisting hstart hrowKept
      · split_ifs
        · exact ⟨hinserted, by rw [hupdated], hunchanged⟩
        · exact ⟨hinserted, hupdated, by rw [hunchanged]⟩
      · split_ifs <;> rfl
      · split_ifs <;> rfl

end

/-! ## One call on both stores -/

/-- What the stores have in common before every call. -/
structure SameStores (companyOf : String → CompanyId) (stores : MemoryLedger × Ledger) : Prop where
  transactions : stores.1.transactions = stores.2.transactions
  anomalies : stores.1.anomalies = stores.2.anomalies
  payments : stores.1.syntheticPayments = [] ∧ stores.2.syntheticPayments = .empty
  company : CompanyById companyOf stores.2.transactions.rows
  rowsKept : ∀ row ∈ stores.2.transactions.rows, RowKept row

/-- An id that stands for an archived row is not stored itself. -/
theorem batchAliases_foreign {companyOf : String → CompanyId} {rows : List LedgerTransaction}
    {timezone : String} {ledger : Ledger} {aliases : List (String × LedgerTransaction)}
    (hcompany : CompanyById companyOf ledger.transactions.rows)
    (h : batchAliases host rows (some timezone) ledger = .ok aliases) {id : String}
    {canonical : LedgerTransaction} (hlookup : aliases.lookup id = some canonical)
    (hforeign : canonical.id ≠ id) (hid : companyOf id = "visaCal") :
    ledger.transactions.find id = none := by
  obtain ⟨l₁, l₂, hsplit, -⟩ := List.lookup_eq_some_iff.mp hlookup
  have hentry : (id, canonical) ∈ aliases := by
    rw [hsplit]
    exact List.mem_append_right _ List.mem_cons_self
  obtain ⟨row, -, hrowId, hcanonical⟩ := (resolveArchiveInstallments_ok h).1 _ hentry
  cases hown : ledger.transactions.find id with
  | none => rfl
  | some own =>
      have hownId : own.id = id := KeyedTable.key_of_find hown
      have hmem : own ∈ ledger.transactions.rows := KeyedTable.mem_of_find hown
      have hownCompany : own.company = "visaCal" := by rw [hcompany own hmem, hownId, hid]
      have hcandidate : own ∈ archiveCandidates ledger :=
        List.mem_filter.mpr ⟨hmem, by simpa using hownCompany⟩
      obtain ⟨existing, hfound, hexisting⟩ := canonicalRow_of_mem timezone
        hcandidate (hownId.trans hrowId.symm)
      have hsame : some existing = some canonical := Except.ok.inj (hfound.symm.trans hcanonical)
      obtain rfl := Option.some.inj hsame
      exact absurd (hexisting.trans hrowId) hforeign

section
variable {companyOf : String → CompanyId} {stores : MemoryLedger × Ledger}

/-- Both stores refuse a batch, or resolve it to aliases that do the same. -/
theorem alike_aliases (h : SameStores companyOf stores) {rows : List LedgerTransaction}
    (hrows : CompanyById companyOf rows) (timezone : Option String) :
    Transactional.Alike (BatchAliases stores.2)
      (batchAliases host rows timezone stores.2) (stores.1.aliases host rows timezone) := by
  cases timezone with
  | none =>
      apply Transactional.Alike.returned
      refine ⟨?_, ?_, fun _ => Or.inl rfl⟩
      · intro _ _ hlookup
        cases hlookup
      · intro _ _ hlookup
        cases hlookup
  | some timezone =>
      have hsame : stores.1.aliases host rows (some timezone) =
          resolveArchiveInstallments host rows stores.2.transactions.rows timezone := by
        rw [← h.transactions]
        rfl
      have halike := @alike_resolveArchiveInstallments host _ _ timezone _ h.company hrows
      change Transactional.Alike _ (batchAliases host rows (some timezone) stores.2) _ at halike
      rw [hsame]
      generalize hsqlite : batchAliases host rows (some timezone) stores.2 = sqlite at halike ⊢
      generalize resolveArchiveInstallments host rows stores.2.transactions.rows timezone = memory
        at halike ⊢
      cases halike with
      | threw e e' => exact Transactional.Alike.threw e e'
      | returned hmaps =>
          obtain ⟨harchived, hother⟩ := hmaps
          apply Transactional.Alike.returned
          refine ⟨fun _ _ hlookup => batchAliases_stored hsqlite hlookup, ?_, ?_⟩
          · intro id canonical hlookup hforeign
            have hcompany : companyOf id = "visaCal" := by
              by_contra hne
              rw [(hother id hne).1] at hlookup
              cases hlookup
            exact batchAliases_foreign h.company hsqlite hlookup hforeign hcompany
          · intro id
            by_cases hcompany : companyOf id = "visaCal"
            · exact Or.inl (harchived id hcompany)
            · refine Or.inr ⟨(hother id hcompany).1, ?_⟩
              intro row hlookup
              obtain ⟨hmem, hid⟩ := (hother id hcompany).2 row hlookup
              rw [← hid, KeyedTable.find_of_mem hmem]
              rfl

/-- Before the first row. -/
theorem BothProgress.start (h : SameStores companyOf stores)
    {sqliteAliases memoryAliases : List (String × LedgerTransaction)}
    (haliases : BatchAliases stores.2 sqliteAliases memoryAliases) :
    BothProgress host companyOf sqliteAliases stores.2 []
      ({}, stores.1.transactions) ({}, stores.2) where
  tables := by rw [h.transactions]
  kept := by
    intro row hrow
    rw [h.transactions]
    exact ⟨row, KeyedTable.find_of_mem hrow, rfl⟩
  foreign := by
    intro id canonical hlookup hforeign
    rw [h.transactions]
    exact haliases.foreign id canonical hlookup hforeign
  company := by
    rw [h.transactions]
    exact h.company
  known := fun _ hrow => absurd hrow List.not_mem_nil
  rowsKept := by
    rw [h.transactions]
    exact h.rowsKept
  logKept := rfl
  counts := ⟨rfl, rfl, rfl⟩
  lengths := rfl
  logs := ⟨fun _ _ hrow => absurd hrow List.not_mem_nil, fun _ => rfl⟩

/-- **One batch.**  After resolving alike, both loops end in step. -/
theorem bothProgress_run (h : SameStores companyOf stores) {rows : List LedgerTransaction}
    (hrows : CompanyById companyOf rows)
    {sqliteAliases memoryAliases : List (String × LedgerTransaction)}
    (haliases : BatchAliases stores.2 sqliteAliases memoryAliases)
    (hrefresh : ∀ row ∈ rows, RefreshKept row)
    (hinserted : ∀ origin, rows.find? (fun row => row.id = origin.id) = some origin →
      stores.2.transactions.find origin.id = none → sqliteAliases.lookup origin.id = none →
      origin.stored = origin) :
    BothProgress host companyOf sqliteAliases stores.2 rows
      (Runs.run (MemoryLedger.upsertRow host memoryAliases) ({}, stores.1.transactions) rows)
      (Runs.run (upsertStep host sqliteAliases) ({}, stores.2) rows) := by
  induction rows using List.reverseRecOn with
  | nil => exact BothProgress.start h haliases
  | append_singleton done row ih =>
      have hdone := ih (fun r hr => hrows r (List.mem_append_left _ hr))
        (fun r hr => hrefresh r (List.mem_append_left _ hr)) (by
          intro origin hfirst
          apply hinserted origin
          rw [List.find?_append, hfirst]
          rfl)
      have hrow : row ∈ done ++ [row] := List.mem_append_right _ (List.mem_singleton_self row)
      rw [Runs.run_append, Runs.run_append]
      exact hdone.step haliases (hrows row hrow) h.rowsKept (hrefresh row hrow) (hinserted row)

/-- **An upsert.**  Where the texts are kept, the stores stay alike but for
their logs, and those stay alike exactly when the aliases agree. -/
theorem upsert_mirrors (h : SameStores companyOf stores) {rows : List LedgerTransaction}
    (hrows : CompanyById companyOf rows) (timezone : Option String)
    (hkept : TextsKept host stores (.upsertTransactions rows timezone)
      (bothCall host stores (.upsertTransactions rows timezone))) :
    (Mirrors host stores (.upsertTransactions rows timezone)
        (bothCall host stores (.upsertTransactions rows timezone)) ↔
      AliasesAgree host stores (.upsertTransactions rows timezone)
        (bothCall host stores (.upsertTransactions rows timezone))) ∧
      (Mirrors host stores (.upsertTransactions rows timezone)
          (bothCall host stores (.upsertTransactions rows timezone)) →
        SameStores companyOf (bothCall host stores (.upsertTransactions rows timezone))) := by
  have halike := @alike_aliases host _ _ h _ hrows timezone
  unfold TextsKept at hkept
  unfold Mirrors AliasesAgree bothCall memoryCall sqliteCall MemoryLedger.upsertTransactions
  dsimp only at hkept ⊢
  rw [upsertTransactions_accepted]
  generalize batchAliases host rows timezone stores.2 = sqlite at halike hkept ⊢
  generalize stores.1.aliases host rows timezone = memory at halike ⊢
  cases halike with
  | threw e e' =>
      refine ⟨?_, fun _ => h⟩
      simp [h.transactions, h.anomalies]
  | @returned sqliteAliases memoryAliases haliases =>
      obtain ⟨hrefresh, hfirst⟩ := hkept sqliteAliases rfl
      have hprogress := @bothProgress_run host _ _ h _ hrows _ _ haliases hrefresh hfirst
      dsimp only
      generalize Runs.run (MemoryLedger.upsertRow host memoryAliases)
        ({}, stores.1.transactions) rows = memory at hprogress ⊢
      generalize Runs.run (upsertStep host sqliteAliases) ({}, stores.2) rows = sqlite
        at hprogress ⊢
      obtain ⟨⟨inserted, updated, unchanged, logged⟩, table⟩ := memory
      obtain ⟨⟨inserted', updated', unchanged', logged'⟩, ledger⟩ := sqlite
      obtain ⟨htables, -, -, hcompany, -, hrowsKept, hlogKept,
        ⟨hinserted, hupdated, hunchanged⟩, -, hlogs⟩ := hprogress
      dsimp only at htables hinserted hupdated hunchanged hlogs hcompany hrowsKept hlogKept ⊢
      subst htables hinserted hupdated hunchanged
      rw [hlogKept]
      constructor
      · rw [h.anomalies]
        constructor
        · intro hmirrors aliases haliases' row hrow
          obtain rfl := Except.ok.inj haliases'
          have hanomalies := List.append_cancel_left hmirrors.2.2
          exact hlogs.mp hanomalies row hrow
        · intro hagree
          have hanomalies := hlogs.mpr fun row hrow => hagree sqliteAliases rfl row hrow
          subst hanomalies
          exact ⟨rfl, fun _ => rfl, rfl⟩
      · intro hmirrors
        exact ⟨rfl, hmirrors.2.2, h.payments, hcompany, hrowsKept⟩

end

/-! ## Coalescing on both stores -/

/-- When a pair passes. -/
theorem validatePair_ok_iff {rows : List LedgerTransaction} {timezone : String}
    {pair : ArchiveInstallmentPair} {v : ReviewedPair} :
    validatePair host rows timezone pair = .ok v ↔
      rows.find? (fun row => row.id = pair.canonicalId) = some v.canonical ∧
      rows.find? (fun row => row.id = pair.duplicateId) = some v.duplicate ∧
      archiveInstallmentStateHash host v.canonical = pair.canonicalStateHash ∧
      archiveInstallmentStateHash host v.duplicate = pair.duplicateStateHash ∧
      ∃ found, findArchiveInstallment host rows v.duplicate timezone = .ok (some found) ∧
        found.id = v.canonical.id := by
  unfold validatePair
  cases hcanonical : rows.find? fun row => row.id = pair.canonicalId with
  | none => simp
  | some canonical =>
      cases hduplicate : rows.find? fun row => row.id = pair.duplicateId with
      | none => simp
      | some duplicate =>
          obtain ⟨vcanonical, vduplicate⟩ := v
          dsimp only
          constructor
          · intro h
            split_ifs at h with hhash
            cases hfind : findArchiveInstallment host rows duplicate timezone with
            | error e =>
                rw [hfind] at h
                cases h
            | ok found =>
                rw [hfind] at h
                dsimp only at h
                split_ifs at h with hfound
                cases h
                obtain ⟨row, rfl, hid⟩ := Option.map_eq_some_iff.mp hfound
                simp only [ne_eq, Bool.or_eq_true, decide_eq_true_eq, not_or, not_not] at hhash
                exact ⟨rfl, rfl, hhash.1, hhash.2, row, hfind, hid⟩
          · intro h
            obtain ⟨hc, hd, hchash, hdhash, row, hfind, hid⟩ := h
            cases hc
            cases hd
            rw [hfind]
            simp [hchash, hdhash, hid]

/-- Both stores accept the same pairs. -/
theorem alike_validatePair (table : KeyedTable LedgerTransaction LedgerTransaction.id)
    (timezone : String) (pair : ArchiveInstallmentPair) :
    Transactional.Alike (· = ·)
      (validatePair host (table.rows.filter fun row => row.company = "visaCal") timezone pair)
      (validatePair host table.rows timezone pair) := by
  apply Transactional.alike_of_ok_iff
  intro v
  have hfind : findArchiveInstallment host
        (table.rows.filter fun row => row.company = "visaCal") v.duplicate timezone =
      findArchiveInstallment host table.rows v.duplicate timezone := by
    have h := @findArchiveInstallment_company host table.rows v.duplicate timezone
      fun _ => true
    rwa [List.filter_true, List.filter_true] at h
  rw [validatePair_ok_iff, validatePair_ok_iff, hfind, KeyedTable.find?_filter_eq_some,
    KeyedTable.find?_filter_eq_some]
  constructor
  · intro h
    obtain ⟨⟨hcanonical, -⟩, ⟨hduplicate, -⟩, hrest⟩ := h
    exact ⟨hcanonical, hduplicate, hrest⟩
  · intro h
    obtain ⟨hcanonical, hduplicate, hchash, hdhash, found, hfound, hid⟩ := h
    obtain ⟨hmem, -, hmatches, -⟩ := findArchiveInstallment_ok_some hfound
    have hstored : v.canonical ∈ table.rows := List.mem_of_find?_eq_some hcanonical
    obtain rfl := KeyedTable.eq_of_key_eq hmem hstored hid
    refine ⟨⟨hcanonical, ?_⟩, ⟨hduplicate, ?_⟩, hchash, hdhash, _, hfound, hid⟩
    · simpa using (company_of_matches hmatches).1
    · simpa using incoming_company_of_matches hmatches

/-- Both stores validate alike. -/
theorem alike_validate (table : KeyedTable LedgerTransaction LedgerTransaction.id)
    (timezone : String) (pairs : List ArchiveInstallmentPair) :
    Transactional.Alike (· = ·)
      (validateArchiveInstallmentPairs host pairs
        (table.rows.filter fun row => row.company = "visaCal") timezone)
      (validateArchiveInstallmentPairs host pairs table.rows timezone) := by
  unfold validateArchiveInstallmentPairs
  split_ifs
  · exact Transactional.Alike.threw _ _
  · exact Transactional.alike_mapM fun pair _ => alike_validatePair table timezone pair
  · exact Transactional.Alike.threw _ _

/-- A stored row may be merged: its texts are kept. -/
theorem RowKept.refreshKept {row : LedgerTransaction} (h : RowKept row) : RefreshKept row :=
  ⟨h.compared, h.memo, h.category⟩

/-- A merge is a refresh of a row that is posted already. -/
theorem refreshed_eq_merged {canonical : LedgerTransaction} (duplicate : LedgerTransaction)
    (hposted : canonical.status = .posted) :
    MemoryLedger.refreshed host canonical duplicate =
      MemoryLedger.merged host canonical duplicate := by
  unfold MemoryLedger.refreshed refreshedStatus MemoryLedger.merged
  simp [hposted]

/-- **The writes of a maintenance run** are the same on both stores. -/
theorem coalesce_tables {ledger : Ledger} {pairs : List ArchiveInstallmentPair}
    {timezone : String} {validated : List ReviewedPair}
    (h : validateArchiveInstallmentPairs host pairs (archiveCandidates ledger) timezone =
      .ok validated)
    (hkept : ∀ row ∈ ledger.transactions.rows, RowKept row) :
    Runs.run (coalesceStep host) ledger validated =
        { ledger with
          transactions :=
            Runs.run (MemoryLedger.coalescePair host) ledger.transactions validated } ∧
      ∀ row ∈ (Runs.run (coalesceStep host) ledger validated).transactions.rows, RowKept row := by
  refine (Runs.run_history (I := fun done after => CoalesceProgress host ledger done after ∧
    after = { ledger with
      transactions := Runs.run (MemoryLedger.coalescePair host) ledger.transactions done } ∧
    ∀ row ∈ after.transactions.rows, RowKept row)
    ⟨CoalesceProgress.start ledger, rfl, hkept⟩ ?_).2
  intro done pair after hinitial hdone
  obtain ⟨hprogress, htables, hafter⟩ := hdone
  obtain ⟨hids, hcanonical, hmatches⟩ := reviewed_turn h hinitial
  have hstored := hprogress.stored hids hcanonical
  have hcanonicalKept := hkept _ (reviewed_stored h hinitial).1
  have hduplicateKept := (hkept _ (reviewed_stored h hinitial).2).refreshKept
  have hmerged : refreshedRow host pair.canonical pair.canonical pair.duplicate =
      MemoryLedger.merged host pair.canonical pair.duplicate := by
    rw [refreshedRow_eq_refreshed rfl hcanonicalKept hduplicateKept,
      refreshed_eq_merged pair.duplicate (posted_of_matches hmatches).1]
  have hmergedKept : RowKept (MemoryLedger.merged host pair.canonical pair.duplicate) := by
    rw [← refreshed_eq_merged pair.duplicate (posted_of_matches hmatches).1]
    exact hcanonicalKept.refreshed hduplicateKept
  refine ⟨hprogress.step hids hcanonical, ?_, ?_⟩
  · unfold coalesceStep Ledger.refresh
    rw [hstored, Runs.run_append]
    dsimp only
    rw [hmerged, htables]
    rfl
  · intro row hrow
    unfold coalesceStep Ledger.refresh at hrow
    rw [hstored] at hrow
    dsimp only at hrow
    rw [hmerged] at hrow
    have hput := (KeyedTable.mem_erase.mp hrow).1
    rcases KeyedTable.mem_put.mp hput with rfl | ⟨hrow, -⟩
    · exact hmergedKept
    · exact hafter row hrow

section
variable {companyOf : String → CompanyId} {stores : MemoryLedger × Ledger}

/-- Rows that a maintenance run leaves have the companies of their ids. -/
theorem company_coalesced {ledger : Ledger} {pairs : List ArchiveInstallmentPair}
    {timezone : String} {validated : List ReviewedPair}
    (hcompany : CompanyById companyOf ledger.transactions.rows)
    (h : validateArchiveInstallmentPairs host pairs (archiveCandidates ledger) timezone =
      .ok validated) :
    CompanyById companyOf (Runs.run (coalesceStep host) ledger validated).transactions.rows := by
  intro row hrow
  have hreviewed := (validateArchiveInstallmentPairs_ok h).2
  obtain ⟨row₀, hrow₀, hsame⟩ := (coalesceProgress_run h).origin hreviewed hrow
  have hrowCompany : row.company = row₀.company := congrArg FrozenFields.company hsame.frozen
  rw [hrowCompany, hcompany row₀ hrow₀, hsame.id_eq]

/-- **A maintenance call** keeps the stores alike. -/
theorem coalesce_mirrors (h : SameStores companyOf stores) (pairs : List ArchiveInstallmentPair)
    (timezone : String) (dryRun : Bool) :
    Mirrors host stores (.coalesceArchiveInstallments pairs timezone dryRun)
        (bothCall host stores (.coalesceArchiveInstallments pairs timezone dryRun)) ∧
      SameStores companyOf
        (bothCall host stores (.coalesceArchiveInstallments pairs timezone dryRun)) := by
  have halike := @alike_validate host stores.2.transactions timezone pairs
  have hdependents : ∀ duplicate, stores.1.hasDependents duplicate =
      stores.2.hasDependents duplicate := by
    intro duplicate
    unfold MemoryLedger.hasDependents Ledger.hasDependents
    rw [h.payments.1, h.payments.2, h.anomalies]
    rfl
  unfold Mirrors bothCall memoryCall sqliteCall MemoryLedger.coalesceArchiveInstallments
  dsimp only
  rw [coalesceArchiveInstallments_accepted, h.transactions]
  simp only [hdependents]
  change Transactional.Alike _ (validateArchiveInstallmentPairs host pairs
    (archiveCandidates stores.2) timezone) _ at halike
  generalize hsqlite : validateArchiveInstallmentPairs host pairs (archiveCandidates stores.2)
    timezone = sqlite at halike ⊢
  generalize validateArchiveInstallmentPairs host pairs stores.2.transactions.rows timezone =
    memory at halike ⊢
  cases halike with
  | threw e e' => exact ⟨⟨rfl, fun _ => by rw [h.transactions], h.anomalies⟩, h⟩
  | @returned validated validated' hsame =>
      subst hsame
      dsimp only
      by_cases hrefused : (validated.any fun pair => stores.2.hasDependents pair.duplicate) = true
      · rw [if_pos hrefused, if_pos hrefused]
        exact ⟨⟨rfl, fun _ => by rw [h.transactions], h.anomalies⟩, h⟩
      · rw [if_neg hrefused, if_neg hrefused]
        cases dryRun with
        | true =>
            simp only [if_true]
            exact ⟨⟨trivial, fun id => congrArg (·.find id) h.transactions, h.anomalies⟩, h⟩
        | false =>
            obtain ⟨htables, hkept⟩ := coalesce_tables hsqlite h.rowsKept
            have hcompany := company_coalesced h.company hsqlite
            rw [htables] at hcompany hkept
            simp only [Bool.false_eq_true, if_false]
            rw [htables]
            exact ⟨⟨trivial, fun _ => rfl, h.anomalies⟩, rfl, h.anomalies, h.payments, hcompany,
              hkept⟩

end

/-! ## Runs of calls -/

variable (host)

/-- Rows with equal ids have equal companies, over all calls. -/
def EqualIdsEqualCompany (calls : List StoreCall) : Prop :=
  ∀ row ∈ calls.flatMap StoreCall.rows, ∀ other ∈ calls.flatMap StoreCall.rows,
    row.id = other.id → row.company = other.company

/-- One company for every id that the calls bring. -/
theorem EqualIdsEqualCompany.exists_companyOf {calls : List StoreCall}
    (h : EqualIdsEqualCompany calls) :
    ∃ companyOf : String → CompanyId, ∀ call ∈ calls, CompanyById companyOf call.rows := by
  refine ⟨fun id => (((calls.flatMap StoreCall.rows).find? fun row => row.id = id).map
    (·.company)).getD "", ?_⟩
  intro call hcall row hrow
  have hmem : row ∈ calls.flatMap StoreCall.rows := List.mem_flatMap.mpr ⟨call, hcall, hrow⟩
  cases hfind : (calls.flatMap StoreCall.rows).find? fun other => other.id = row.id with
  | none =>
      have hnone := List.find?_eq_none.mp hfind row hmem
      simp at hnone
  | some other =>
      obtain ⟨hother, hid⟩ := find?_id_eq_some hfind
      dsimp only
      rw [hfind]
      exact (h other hother row hmem hid).symm

/-- **The fake mirrors the SQLite ledger** over a run of calls on empty stores
whose texts the database keeps exactly when, in every accepted batch, the rows
whose ids stand for an archived row differ from it in nothing that is
reported. -/
theorem memory_mirrors_sqlite_iff (calls : List StoreCall)
    (hcompany : EqualIdsEqualCompany calls)
    (hkept : Runs.Along (bothCall host) (TextsKept host) (createMemoryLedger, emptyLedger) calls) :
    Runs.Along (bothCall host) (Mirrors host) (createMemoryLedger, emptyLedger) calls ↔
      Runs.Along (bothCall host) (AliasesAgree host) (createMemoryLedger, emptyLedger) calls := by
  obtain ⟨companyOf, hrows⟩ := hcompany.exists_companyOf
  have hstart : SameStores companyOf (createMemoryLedger, emptyLedger) :=
    ⟨rfl, rfl, ⟨rfl, rfl⟩, fun _ hrow => absurd hrow List.not_mem_nil,
      fun _ hrow => absurd hrow List.not_mem_nil⟩
  have hstep : ∀ (stores : MemoryLedger × Ledger) (call : StoreCall), SameStores companyOf stores →
      CompanyById companyOf call.rows → TextsKept host stores call (bothCall host stores call) →
      (Mirrors host stores call (bothCall host stores call) ↔
        AliasesAgree host stores call (bothCall host stores call)) ∧
      (Mirrors host stores call (bothCall host stores call) →
        SameStores companyOf (bothCall host stores call)) := by
    intro stores call hstores hcall hcallKept
    cases call with
    | upsertTransactions rows timezone => exact upsert_mirrors hstores hcall timezone hcallKept
    | coalesceArchiveInstallments pairs timezone dryRun =>
        obtain ⟨hmirrors, hnext⟩ := coalesce_mirrors hstores pairs timezone dryRun
        exact ⟨iff_of_true hmirrors trivial, fun _ => hnext⟩
  constructor
  · intro hmirrors
    have hboth := (Runs.along_and.mpr ⟨hmirrors, hkept⟩).and_inputs hrows
    refine hboth.of_invariant hstart ?_
    rintro stores call hstores ⟨hcall, hcallMirrors, hcallKept⟩
    obtain ⟨hexact, hnext⟩ := hstep stores call hstores hcall hcallKept
    exact ⟨hnext hcallMirrors, hexact.mp hcallMirrors⟩
  · intro hagree
    have hboth := (Runs.along_and.mpr ⟨hagree, hkept⟩).and_inputs hrows
    refine hboth.of_invariant hstart ?_
    rintro stores call hstores ⟨hcall, hcallAgrees, hcallKept⟩
    obtain ⟨hexact, hnext⟩ := hstep stores call hstores hcall hcallKept
    exact ⟨hnext (hexact.mpr hcallAgrees), hexact.mpr hcallAgrees⟩

/-! ## Two portal rows under one id -/

/-- A portal row that the archive stands for, and one under the same id with
a corrected description. -/
def correctedTwin : List StoreCall :=
  [.upsertTransactions [archivedFridge] (some "Asia/Jerusalem"),
    .upsertTransactions
      [portalFridge, { portalFridge with description := "Fridge (corrected)" }]
      (some "Asia/Jerusalem")]

/-- The fridge is stored alike in both. -/
theorem fridge_mirrored :
    Runs.Along (bothCall asciiHost) (Mirrors asciiHost) (createMemoryLedger, emptyLedger)
      [.upsertTransactions [archivedFridge] (some "Asia/Jerusalem"),
        .upsertTransactions [portalFridge] (some "Asia/Jerusalem")] := by
  have hkept : ∀ row, row.stored = row → RefreshKept row → ∀ stores after,
      TextsKept asciiHost stores (.upsertTransactions [row] (some "Asia/Jerusalem")) after := by
    intro row hstored hrefresh stores after aliases _
    constructor
    · intro other hother
      rw [List.mem_singleton.mp hother]
      exact hrefresh
    · intro origin hfirst _ _
      rw [List.mem_singleton.mp (List.mem_of_find?_eq_some hfirst)]
      exact hstored
  have harchived : RefreshKept archivedFridge :=
    ⟨⟨by decide +kernel, by decide +kernel⟩, by decide +kernel, by decide +kernel⟩
  have hportal : RefreshKept portalFridge :=
    ⟨⟨by decide +kernel, by decide +kernel⟩, by decide +kernel, by decide +kernel⟩
  refine (memory_mirrors_sqlite_iff asciiHost _ ?_ ?_).mpr ⟨?_, ?_, trivial⟩
  · unfold EqualIdsEqualCompany
    decide +kernel
  · exact ⟨hkept _ (by decide +kernel) harchived _ _, hkept _ (by decide +kernel) hportal _ _,
      trivial⟩
  · intro aliases haliases
    have hnone : batchAliases asciiHost [archivedFridge] (some "Asia/Jerusalem") emptyLedger =
        .ok [] := by decide +kernel
    obtain rfl := Except.ok.inj (hnone.symm.trans haliases)
    intro _ _ _ hlookup
    cases hlookup
  · intro aliases haliases row hrow canonical hlookup _
    have hresolve : batchAliases asciiHost [portalFridge] (some "Asia/Jerusalem")
        (bothCall asciiHost (createMemoryLedger, emptyLedger)
          (.upsertTransactions [archivedFridge] (some "Asia/Jerusalem"))).2 =
        .ok [(portalFridge.id, archivedFridge)] := by decide +kernel
    obtain rfl := Except.ok.inj (hresolve.symm.trans haliases)
    obtain rfl := List.mem_singleton.mp hrow
    rw [List.lookup_cons_self] at hlookup
    obtain rfl := Option.some.inj hlookup
    exact ⟨rfl, rfl⟩

/-- A row whose description was cut inside an emoji, as the normalization cuts it. -/
def cutFridge : List StoreCall :=
  [.upsertTransactions
    [{ portalFridge with description := (JsText.ofString "Fridge 😀").slice 8 }]
    (some "Asia/Jerusalem")]

/-- **The stores drift apart**: the fake logs the corrected description under the portal id,
SQLite under the archived one; and a description with half an emoji reads differently from the
two of them. -/
theorem corrected_twin_logged_apart :
    (EqualIdsEqualCompany correctedTwin ∧
      ¬ Runs.Along (bothCall asciiHost) (Mirrors asciiHost) (createMemoryLedger, emptyLedger)
        correctedTwin) ∧
      EqualIdsEqualCompany cutFridge ∧
        ¬ Runs.Along (bothCall asciiHost) (Mirrors asciiHost) (createMemoryLedger, emptyLedger)
          cutFridge := by
  refine ⟨⟨?_, ?_⟩, ?_, ?_⟩
  · unfold EqualIdsEqualCompany
    decide +kernel
  · intro h
    have hlogs := h.2.1.2.2
    revert hlogs
    decide +kernel
  · unfold EqualIdsEqualCompany
    decide +kernel
  · intro h
    have hread := h.1.2.1 portalFridge.id
    revert hread
    decide +kernel

end

end SimplefinBridge
