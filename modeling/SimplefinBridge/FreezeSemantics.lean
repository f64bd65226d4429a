import SimplefinBridge.SqliteLedger

/-!
# Freeze semantics

What a consumer has synced must not change under it.  `Freeze old new` lists
what may happen to a stored row: its frozen fields stay, it moves from pending
to posted at most once and is stamped exactly then, dates and texts are
refreshed but never lost, and archive evidence survives.  `Freeze` is
reflexive and transitive, so it composes over rows of a batch and over
batches.

A batch writes rows along three paths: a new row is inserted, a row is
refreshed under its own id, or an archived installment is refreshed under the
alias computed **before** the batch.  The third path writes back values read
before the batch began; `UpsertProgress` therefore relates every row to the
one stored when the batch began, not to the one just before the write.
-/

namespace SimplefinBridge

/-- The fields no refresh touches. -/
structure FrozenFields where
  id : String
  accountId : String
  company : CompanyId
  amount : ℚ
  currency : String
  bookedDate : IsoDate
  description : JsText
  identifier : Option String
  installmentNumber : Option ℚ
  installmentTotal : Option ℚ
  originalAmount : Option ℚ
  originalCurrency : Option String
  firstSeen : Instant
  deriving DecidableEq

/-- The fields that never change. -/
def LedgerTransaction.frozen (row : LedgerTransaction) : FrozenFields where
  id := row.id
  accountId := row.accountId
  company := row.company
  amount := row.amount
  currency := row.currency
  bookedDate := row.bookedDate
  description := row.description
  identifier := row.identifier
  installmentNumber := row.installmentNumber
  installmentTotal := row.installmentTotal
  originalAmount := row.originalAmount
  originalCurrency := row.originalCurrency
  firstSeen := row.firstSeen

/-- What may happen to a stored row. -/
structure Freeze (host : Host) (old new : LedgerTransaction) : Prop where
  frozen : new.frozen = old.frozen
  status : new.status = old.status ∨ (old.status = .pending ∧ new.status = .posted)
  unstamped : new.status = old.status → new.postedSeenAt = old.postedSeenAt
  stamped : new.status ≠ old.status → old.postedSeenAt = none ∧ new.postedSeenAt.isSome
  chargeDate : old.chargeDate.isSome → new.chargeDate.isSome
  category : old.category.isSome → new.category.isSome
  memo : old.memo.isSome → new.memo.isSome
  archive : ∀ wrapper, archiveWrapper host old.raw = some wrapper →
    archiveWrapper host new.raw = some wrapper

/-- A pending row carries no posting stamp. -/
def Unstamped (row : LedgerTransaction) : Prop := row.status = .pending → row.postedSeenAt = none

section
variable {host : Host}

/-- A row that is not touched is frozen. -/
theorem Freeze.refl (row : LedgerTransaction) : Freeze host row row where
  frozen := rfl
  status := Or.inl rfl
  unstamped := fun _ => rfl
  stamped := fun h => absurd rfl h
  chargeDate := id
  category := id
  memo := id
  archive := fun _ h => h

/-- What two batches freeze stays frozen. -/
theorem Freeze.trans {a b c : LedgerTransaction} (hab : Freeze host a b) (hbc : Freeze host b c) :
    Freeze host a c where
  frozen := hbc.frozen.trans hab.frozen
  status := by
    rcases hab.status with hb | ⟨ha, hb⟩
    · rcases hbc.status with hc | ⟨hb', hc⟩
      · exact Or.inl (hc.trans hb)
      · exact Or.inr ⟨hb ▸ hb', hc⟩
    · rcases hbc.status with hc | ⟨-, hc⟩
      · exact Or.inr ⟨ha, hc.trans hb⟩
      · exact Or.inr ⟨ha, hc⟩
  unstamped := by
    intro hsame
    rcases hab.status with hb | ⟨ha, hb⟩
    · rw [hbc.unstamped (hsame.trans hb.symm), hab.unstamped hb]
    · -- a row that was posted does not become pending again
      rw [ha] at hsame
      rcases hbc.status with hc | ⟨hb', -⟩
      · rw [hsame, hb] at hc
        cases hc
      · rw [hb] at hb'
        cases hb'
  stamped := by
    intro hmoved
    rcases hab.status with hb | ⟨ha, hb⟩
    · have hc : c.status ≠ b.status := fun h => hmoved (h.trans hb)
      obtain ⟨hnone, hsome⟩ := hbc.stamped hc
      exact ⟨hab.unstamped hb ▸ hnone, hsome⟩
    · have hab' : b.status ≠ a.status := by
        rw [ha, hb]
        decide
      obtain ⟨hnone, hsome⟩ := hab.stamped hab'
      rcases hbc.status with hc | ⟨hb', -⟩
      · exact ⟨hnone, hbc.unstamped hc ▸ hsome⟩
      · rw [hb] at hb'
        cases hb'
  chargeDate := hbc.chargeDate ∘ hab.chargeDate
  category := hbc.category ∘ hab.category
  memo := hbc.memo ∘ hab.memo
  archive := fun wrapper h => hbc.archive wrapper (hab.archive wrapper h)

/-- It keeps its id. -/
theorem Freeze.id_eq {old new : LedgerTransaction} (h : Freeze host old new) : new.id = old.id :=
  congrArg FrozenFields.id h.frozen

/-- It keeps its missing stamp. -/
theorem Freeze.unstamped_of {old new : LedgerTransaction} (h : Freeze host old new)
    (hold : Unstamped old) : Unstamped new := by
  intro hpending
  rcases h.status with hsame | ⟨-, hposted⟩
  · rw [h.unstamped hsame]
    exact hold (hsame ▸ hpending)
  · rw [hposted] at hpending
    cases hpending

/-- A row inserted without a stamp is stamped exactly when it has moved from
pending to posted. -/
theorem Freeze.stamped_iff {old new : LedgerTransaction} (h : Freeze host old new)
    (hold : old.postedSeenAt = none) :
    new.postedSeenAt.isSome ↔ old.status = .pending ∧ new.status = .posted := by
  rcases h.status with hsame | ⟨hpending, hposted⟩
  · rw [h.unstamped hsame, hold, hsame]
    constructor
    · intro hsome
      cases hsome
    · rintro ⟨hpending, hposted⟩
      rw [hpending] at hposted
      cases hposted
  · have hmoved : new.status ≠ old.status := by
      rw [hpending, hposted]
      decide
    exact ⟨fun _ => ⟨hpending, hposted⟩, fun _ => (h.stamped hmoved).2⟩

/-- A status is kept, or pending becomes posted. -/
theorem refreshedStatus_cases (existing incoming : LedgerTransaction) :
    refreshedStatus existing incoming = existing.status ∨
      (existing.status = .pending ∧ refreshedStatus existing incoming = .posted) := by
  unfold refreshedStatus
  split_ifs with h
  · exact Or.inr ⟨h.1, rfl⟩
  · exact Or.inl rfl

/-- **A refresh freezes.**  Writing the refreshable fields computed from
`existing` onto a stored row with the same frozen fields is a step `Freeze`
allows from `existing`. -/
theorem freeze_refreshedRow {stored existing : LedgerTransaction} (incoming : LedgerTransaction)
    (hstored : stored.frozen = existing.frozen) (hexisting : Unstamped existing) :
    Freeze host existing (refreshedRow host stored existing incoming) where
  frozen := hstored
  status := refreshedStatus_cases existing incoming
  unstamped := by
    intro hsame
    change refreshedStatus existing incoming = existing.status at hsame
    simp [refreshedRow, hsame]
  stamped := by
    intro hmoved
    change refreshedStatus existing incoming ≠ existing.status at hmoved
    have hpending : existing.status = .pending := by
      rcases refreshedStatus_cases existing incoming with h | h
      · exact absurd h hmoved
      · exact h.1
    have hnone := hexisting hpending
    simp [refreshedRow, hnone, hmoved]
  chargeDate := by
    intro h
    simp [refreshedRow, h]
  category := by
    intro h
    simp [refreshedRow, h]
  memo := by
    intro h
    simp [refreshedRow, h]
  archive := fun _ h => archiveWrapper_preserveArchiveRaw host h

/-! ## Differences -/

/-- The differences between an incoming row and the stored row that stands
for it, reported under the stored id; the booked date is compared only under
the row's own id. -/
def differences (host : Host) (stored incoming : LedgerTransaction) : List Anomaly :=
  let report (field : AnomalyField) (previous current : JsText) : List Anomaly :=
    if previous = current then []
    else [{ transactionId := stored.id, field, previous, incoming := current,
            seenAt := incoming.lastSeen }]
  report .amount (host.toFixed2 stored.amount) (host.toFixed2 incoming.amount) ++
    (if stored.id = incoming.id then report .bookedDate stored.bookedDate incoming.bookedDate
      else []) ++
    report .description stored.description incoming.description

/-- Only frozen fields are compared. -/
theorem differences_congr {stored stored' : LedgerTransaction} (incoming : LedgerTransaction)
    (h : stored'.frozen = stored.frozen) :
    differences host stored' incoming = differences host stored incoming := by
  have hid : stored'.id = stored.id := congrArg FrozenFields.id h
  have hamount : stored'.amount = stored.amount := congrArg FrozenFields.amount h
  have hdate : stored'.bookedDate = stored.bookedDate := congrArg FrozenFields.bookedDate h
  have hdescription : stored'.description = stored.description :=
    congrArg FrozenFields.description h
  unfold differences
  rw [hid, hamount, hdate, hdescription]

/-- A row differs in nothing from what is stored of it, where its description is kept. -/
theorem differences_stored {row : LedgerTransaction} (h : row.description.Kept) :
    differences host row.stored row = [] := by
  have hdescription : row.stored.description = row.description := h
  unfold differences
  rw [hdescription]
  simp [LedgerTransaction.stored]

/-- What the upsert reports is what differs. -/
theorem frozenFieldAnomalies_eq_differences (existing row : LedgerTransaction) :
    frozenFieldAnomalies host existing (aliasedIncoming existing row) =
      differences host existing row := by
  unfold frozenFieldAnomalies differences aliasedIncoming
  by_cases hid : existing.id = row.id <;>
  by_cases hamount : host.toFixed2 existing.amount = host.toFixed2 row.amount <;>
  by_cases hdate : existing.bookedDate = row.bookedDate <;>
  by_cases hdescription : existing.description = row.description <;>
  simp [hid, hamount, hdate, hdescription]

/-! ## Kept texts -/

/-- The texts that the anomaly log shows of a row come back as they are. -/
def ComparedKept (row : LedgerTransaction) : Prop :=
  row.description.Kept ∧ JsText.Kept row.bookedDate

/-- What was kept is kept while it is frozen. -/
theorem ComparedKept.of_frozen {old new : LedgerTransaction} (h : ComparedKept old)
    (hfrozen : new.frozen = old.frozen) : ComparedKept new := by
  have hdescription : new.description = old.description := congrArg FrozenFields.description hfrozen
  have hdate : new.bookedDate = old.bookedDate := congrArg FrozenFields.bookedDate hfrozen
  unfold ComparedKept
  rw [hdescription, hdate]
  exact h

/-- What is stored of a row has a kept description. -/
theorem ComparedKept.stored {row : LedgerTransaction} (h : ComparedKept row) :
    ComparedKept row.stored := ⟨JsText.kept_stored _, h.2⟩

/-- A text printed without NUL is kept. -/
theorem kept_ofString {text : String} (h : '\x00' ∉ text.toList) :
    (JsText.ofString text).Kept := JsText.kept_iff.mpr ⟨text, rfl, h⟩

/-- The log gives the differences back as they were reported. -/
theorem map_stored_differences {stored incoming : LedgerTransaction} (hstored : ComparedKept stored)
    (hincoming : ComparedKept incoming) :
    (differences host stored incoming).map Anomaly.stored = differences host stored incoming := by
  have hone : ∀ (field : AnomalyField) (previous current : JsText), previous.Kept → current.Kept →
      (if previous = current then [] else [({
          transactionId := stored.id, field, previous, incoming := current,
          seenAt := incoming.lastSeen } : Anomaly)]).map Anomaly.stored =
        if previous = current then [] else [{
          transactionId := stored.id, field, previous, incoming := current,
          seenAt := incoming.lastSeen }] := by
    intro field previous current hprevious hcurrent
    by_cases hsame : previous = current
    · rw [if_pos hsame, List.map_nil]
    · rw [if_neg hsame, List.map_singleton]
      unfold Anomaly.stored
      rw [hprevious, hcurrent]
  have hamount := hone .amount _ _ (kept_ofString (host.toFixed2_noNul stored.amount))
    (kept_ofString (host.toFixed2_noNul incoming.amount))
  have hdate := hone .bookedDate _ _ hstored.2 hincoming.2
  have hdescription := hone .description _ _ hstored.1 hincoming.1
  unfold differences
  dsimp only
  rw [List.map_append, List.map_append, hamount, hdescription]
  by_cases hid : stored.id = incoming.id
  · rw [if_pos hid, hdate]
  · rw [if_neg hid, List.map_nil]

/-! ## One batch -/

/-- The stored row an incoming row stands for: the one with its id, or its
archived alias. -/
def representative (aliases : List (String × LedgerTransaction)) (ledger : Ledger)
    (row : LedgerTransaction) : Option LedgerTransaction :=
  (ledger.transactions.find row.id).or
    ((aliases.lookup row.id).bind fun canonical => ledger.transactions.find canonical.id)

/-- The differences a batch reports for one incoming row. -/
def reportedFor (host : Host) (aliases : List (String × LedgerTransaction)) (ledger : Ledger)
    (row : LedgerTransaction) : List Anomaly :=
  ((representative aliases ledger row).map fun stored => differences host stored row).getD []

/-- Every row of `old` is still stored in `new` and has only been refreshed. -/
def Preserved (host : Host) (old new : Ledger) : Prop :=
  ∀ row ∈ old.transactions.rows,
    ∃ row', new.transactions.find row.id = some row' ∧ Freeze host row row'

/-- What holds after the rows `done` of a batch that began on `start`. -/
structure UpsertProgress (host : Host) (aliases : List (String × LedgerTransaction))
    (start : Ledger) (done : List LedgerTransaction) (state : UpsertSummary × Ledger) : Prop where
  preserved : Preserved host start state.2
  inserted : ∀ row ∈ state.2.transactions.rows, start.transactions.find row.id = none →
    aliases.lookup row.id = none ∧
      ∃ origin, done.find? (fun x => x.id = row.id) = some origin ∧ Freeze host origin.stored row
  unstamped : ∀ row ∈ state.2.transactions.rows, Unstamped row
  known : ∀ row ∈ done,
    (state.2.transactions.find row.id).isSome ∨ (aliases.lookup row.id).isSome
  anomalies : state.2.anomalies = start.anomalies
  reported : (∀ row ∈ done, row.description.Kept) →
    state.1.anomalies = done.flatMap (reportedFor host aliases state.2)

/-- No row has been taken yet. -/
theorem UpsertProgress.start {aliases : List (String × LedgerTransaction)} {ledger : Ledger}
    (h : ∀ row ∈ ledger.transactions.rows, Unstamped row) :
    UpsertProgress host aliases ledger [] ({}, ledger) where
  preserved := fun row hrow => ⟨row, KeyedTable.find_of_mem hrow, Freeze.refl row⟩
  inserted := by
    intro row hrow hnone
    rw [KeyedTable.find_of_mem hrow] at hnone
    cases hnone
  unstamped := h
  known := fun row hrow => absurd hrow List.not_mem_nil
  anomalies := rfl
  reported := fun _ => rfl

/-- A ledger in which every known row stays with its frozen fields, and in
which no alias has become a row of its own, reports the same differences. -/
theorem reportedFor_congr {aliases : List (String × LedgerTransaction)} {old new : Ledger}
    {row : LedgerTransaction}
    (hfrozen : ∀ id stored, old.transactions.find id = some stored →
      ∃ stored', new.transactions.find id = some stored' ∧ stored'.frozen = stored.frozen)
    (haliases : ∀ canonical, aliases.lookup row.id = some canonical →
      (old.transactions.find canonical.id).isSome)
    (hknown : (old.transactions.find row.id).isSome ∨ (aliases.lookup row.id).isSome)
    (hnew : (aliases.lookup row.id).isSome → old.transactions.find row.id = none →
      new.transactions.find row.id = none) :
    reportedFor host aliases new row = reportedFor host aliases old row := by
  unfold reportedFor representative
  cases hown : old.transactions.find row.id with
  | some stored =>
      obtain ⟨stored', hfind, hsame⟩ := hfrozen _ _ hown
      rw [hfind]
      simp [differences_congr row hsame]
  | none =>
      rw [hown] at hknown
      have halias : (aliases.lookup row.id).isSome := by simpa using hknown
      obtain ⟨canonical, hcanonical⟩ := Option.isSome_iff_exists.mp halias
      obtain ⟨stored, hstored⟩ := Option.isSome_iff_exists.mp (haliases _ hcanonical)
      obtain ⟨stored', hfind, hsame⟩ := hfrozen _ _ hstored
      rw [hnew halias hown, hcanonical]
      simp [hstored, hfind, differences_congr row hsame]

section
variable {aliases : List (String × LedgerTransaction)} {start ledger : Ledger}
  {done : List LedgerTransaction} {summary : UpsertSummary} {row : LedgerTransaction}

/-- Aliases point at rows stored when the batch began. -/
theorem UpsertProgress.alias_stored
    (h : UpsertProgress host aliases start done (summary, ledger))
    (haliases : ∀ id canonical, aliases.lookup id = some canonical →
      canonical ∈ start.transactions.rows)
    {id : String} {canonical : LedgerTransaction} (hlookup : aliases.lookup id = some canonical) :
    ∃ stored, ledger.transactions.find canonical.id = some stored ∧ Freeze host canonical stored :=
  h.preserved canonical (haliases id canonical hlookup)

/-- An unknown row is inserted. -/
theorem UpsertProgress.insert (h : UpsertProgress host aliases start done (summary, ledger))
    (haliases : ∀ id canonical, aliases.lookup id = some canonical →
      canonical ∈ start.transactions.rows)
    (hrow : row.postedSeenAt = none) (hnone : ledger.transactions.find row.id = none)
    (halias : aliases.lookup row.id = none) (inserted : Nat) :
    UpsertProgress host aliases start (done ++ [row])
      ({ summary with inserted },
        { ledger with transactions := ledger.transactions.put row.stored }) := by
  have hkept : ∀ id stored, ledger.transactions.find id = some stored →
      (ledger.transactions.put row.stored).find id = some stored := by
    intro id stored hfind
    have hne : id ≠ row.stored.id := by
      rintro rfl
      rw [LedgerTransaction.stored_id, hnone] at hfind
      cases hfind
    rw [KeyedTable.find_put_other _ hne, hfind]
  have hfresh : ∀ x ∈ done, x.id ≠ row.id := by
    intro x hx hid
    have hknown := h.known x hx
    rw [hid, hnone, halias] at hknown
    simp at hknown
  refine ⟨?_, ?_, ?_, ?_, h.anomalies, ?_⟩
  · intro r hr
    obtain ⟨r', hfind, hfreeze⟩ := h.preserved r hr
    exact ⟨r', hkept _ _ hfind, hfreeze⟩
  · intro r hr hstart
    rw [List.find?_append]
    rcases KeyedTable.mem_put.mp hr with rfl | ⟨hr, -⟩
    · refine ⟨halias, row, ?_, Freeze.refl row.stored⟩
      have hno : done.find? (fun x => x.id = row.stored.id) = none := by
        rw [List.find?_eq_none]
        intro x hx
        exact mt of_decide_eq_true (hfresh x hx)
      rw [hno]
      simp [LedgerTransaction.stored]
    · obtain ⟨hunaliased, origin, hfind, hfreeze⟩ := h.inserted r hr hstart
      exact ⟨hunaliased, origin, by rw [hfind]; rfl, hfreeze⟩
  · intro r hr
    rcases KeyedTable.mem_put.mp hr with rfl | ⟨hr, -⟩
    · exact fun _ => hrow
    · exact h.unstamped r hr
  · intro x hx
    rcases List.mem_append.mp hx with hx | hx
    · rcases h.known x hx with hsome | hsome
      · obtain ⟨stored, hfind⟩ := Option.isSome_iff_exists.mp hsome
        exact Or.inl (by rw [hkept _ _ hfind]; rfl)
      · exact Or.inr hsome
    · obtain rfl := List.mem_singleton.mp hx
      exact Or.inl (by rw [← x.stored_id, KeyedTable.find_put_self]; rfl)
  · intro hdescriptions
    have hold : done.flatMap (reportedFor host aliases
          { ledger with transactions := ledger.transactions.put row.stored }) =
        done.flatMap (reportedFor host aliases ledger) := by
      apply List.flatMap_congr
      intro x hx
      refine reportedFor_congr ?_ ?_ (h.known x hx) ?_
      · intro id stored hfind
        exact ⟨stored, hkept _ _ hfind, rfl⟩
      · intro canonical hlookup
        obtain ⟨stored, hfind, -⟩ := h.alias_stored haliases hlookup
        rw [hfind]
        rfl
      · intro _ hx'
        rw [KeyedTable.find_put_other (a := row.stored) _ (hfresh x hx), hx']
    have hself : reportedFor host aliases
        { ledger with transactions := ledger.transactions.put row.stored } row = [] := by
      have hfind : (ledger.transactions.put row.stored).find row.id = some row.stored :=
        KeyedTable.find_put_self _ _
      have hrowKept := hdescriptions row (List.mem_append_right _ (List.mem_singleton_self _))
      simp [reportedFor, representative, hfind, differences_stored hrowKept]
    rw [List.flatMap_append, hold, List.flatMap_singleton, hself, List.append_nil]
    exact h.reported fun x hx => hdescriptions x (List.mem_append_left _ hx)

/-- Where the row to refresh comes from: it is the stored row with the
incoming id, or an alias of a row stored when the batch began. -/
theorem UpsertProgress.existing_cases
    (h : UpsertProgress host aliases start done (summary, ledger))
    (haliases : ∀ id canonical, aliases.lookup id = some canonical →
      canonical ∈ start.transactions.rows)
    (hstart : ∀ row ∈ start.transactions.rows, Unstamped row) {existing : LedgerTransaction}
    (hexisting : (ledger.transactions.find row.id).or (aliases.lookup row.id) = some existing) :
    ∃ stored, ledger.transactions.find existing.id = some stored ∧
      stored.frozen = existing.frozen ∧ Unstamped existing ∧
      ((existing.id = row.id ∧ stored = existing) ∨
        (ledger.transactions.find row.id = none ∧ aliases.lookup row.id = some existing ∧
          existing ∈ start.transactions.rows)) := by
  cases hown : ledger.transactions.find row.id with
  | some own =>
      rw [hown] at hexisting
      obtain rfl := Option.some.inj hexisting
      have hid : own.id = row.id := KeyedTable.key_of_find hown
      have hmem : own ∈ ledger.transactions.rows := KeyedTable.mem_of_find hown
      exact ⟨own, by rw [hid, hown], rfl, h.unstamped own hmem, Or.inl ⟨hid, rfl⟩⟩
  | none =>
      rw [hown] at hexisting
      have hlookup : aliases.lookup row.id = some existing := hexisting
      have hmem := haliases _ _ hlookup
      obtain ⟨stored, hfind, hfreeze⟩ := h.preserved existing hmem
      exact ⟨stored, hfind, hfreeze.frozen, hstart existing hmem,
        Or.inr ⟨rfl, hlookup, hmem⟩⟩

/-- A known row is refreshed. -/
theorem UpsertProgress.refresh (h : UpsertProgress host aliases start done (summary, ledger))
    (haliases : ∀ id canonical, aliases.lookup id = some canonical →
      canonical ∈ start.transactions.rows)
    (hstart : ∀ row ∈ start.transactions.rows, Unstamped row) {existing : LedgerTransaction}
    (hexisting : (ledger.transactions.find row.id).or (aliases.lookup row.id) = some existing)
    {summary' : UpsertSummary} (hsummary : summary'.anomalies =
      summary.anomalies ++ frozenFieldAnomalies host existing (aliasedIncoming existing row)) :
    UpsertProgress host aliases start (done ++ [row])
      (summary', ledger.refresh host existing row) := by
  obtain ⟨stored, hstored, hfrozen, hunstamped, hsource⟩ :=
    h.existing_cases haliases hstart hexisting
  let new := refreshedRow host stored existing row
  have hledger : ledger.refresh host existing row =
      { ledger with transactions := ledger.transactions.put new } := by
    unfold Ledger.refresh
    rw [hstored]
  have hnew : Freeze host existing new := freeze_refreshedRow row hfrozen hunstamped
  have hid : new.id = existing.id := hnew.id_eq
  have hkept : ∀ id st, ledger.transactions.find id = some st →
      ∃ st', (ledger.transactions.put new).find id = some st' ∧ st'.frozen = st.frozen := by
    intro id st hfind
    by_cases hkey : id = new.id
    · rw [hkey, hid, hstored] at hfind
      obtain rfl := Option.some.inj hfind
      exact ⟨new, by rw [hkey, KeyedTable.find_put_self], rfl⟩
    · exact ⟨st, by rw [KeyedTable.find_put_other _ hkey, hfind], rfl⟩
  have hunknown : ∀ id, ledger.transactions.find id = none →
      (ledger.transactions.put new).find id = none := by
    intro id hnone
    have hne : id ≠ new.id := by
      intro heq
      rw [heq, hid, hstored] at hnone
      cases hnone
    rw [KeyedTable.find_put_other _ hne, hnone]
  rw [hledger]
  refine ⟨?_, ?_, ?_, ?_, h.anomalies, ?_⟩
  · intro r hr
    obtain ⟨r', hfind, hfreeze⟩ := h.preserved r hr
    by_cases hkey : r.id = new.id
    · refine ⟨new, by rw [hkey]; exact KeyedTable.find_put_self _ _, ?_⟩
      rcases hsource with ⟨-, rfl⟩ | ⟨-, -, hmem⟩
      · rw [hkey, hid, hstored] at hfind
        obtain rfl := Option.some.inj hfind
        exact hfreeze.trans hnew
      · -- the alias was read when the batch began
        obtain rfl := KeyedTable.eq_of_key_eq hr hmem (hkey.trans hid)
        exact hnew
    · exact ⟨r', by rw [KeyedTable.find_put_other _ hkey, hfind], hfreeze⟩
  · intro r hr hnone
    rw [List.find?_append]
    rcases KeyedTable.mem_put.mp hr with rfl | ⟨hr, -⟩
    · rcases hsource with ⟨-, rfl⟩ | ⟨-, -, hmem⟩
      · have hmem : stored ∈ ledger.transactions.rows := KeyedTable.mem_of_find hstored
        rw [hid] at hnone ⊢
        obtain ⟨hunaliased, origin, hfind, hfreeze⟩ := h.inserted stored hmem hnone
        exact ⟨hunaliased, origin, by rw [hfind]; rfl, hfreeze.trans hnew⟩
      · rw [hid, KeyedTable.find_of_mem hmem] at hnone
        cases hnone
    · obtain ⟨hunaliased, origin, hfind, hfreeze⟩ := h.inserted r hr hnone
      exact ⟨hunaliased, origin, by rw [hfind]; rfl, hfreeze⟩
  · intro r hr
    rcases KeyedTable.mem_put.mp hr with rfl | ⟨hr, -⟩
    · exact hnew.unstamped_of hunstamped
    · exact h.unstamped r hr
  · intro x hx
    rcases List.mem_append.mp hx with hx | hx
    · rcases h.known x hx with hsome | hsome
      · obtain ⟨st, hfind⟩ := Option.isSome_iff_exists.mp hsome
        obtain ⟨st', hfind', -⟩ := hkept _ _ hfind
        exact Or.inl (by rw [hfind']; rfl)
      · exact Or.inr hsome
    · obtain rfl := List.mem_singleton.mp hx
      rcases hsource with ⟨hown, rfl⟩ | ⟨-, hlookup, -⟩
      · rw [hown] at hstored
        obtain ⟨st', hfind', -⟩ := hkept _ _ hstored
        exact Or.inl (by rw [hfind']; rfl)
      · exact Or.inr (by rw [hlookup]; rfl)
  · intro hdescriptions
    have hold : done.flatMap (reportedFor host aliases
          { ledger with transactions := ledger.transactions.put new }) =
        done.flatMap (reportedFor host aliases ledger) := by
      apply List.flatMap_congr
      intro x hx
      refine reportedFor_congr hkept ?_ (h.known x hx) fun _ hnone => hunknown _ hnone
      intro canonical hlookup
      obtain ⟨st, hfind, -⟩ := h.alias_stored haliases hlookup
      rw [hfind]
      rfl
    have hself : reportedFor host aliases
        { ledger with transactions := ledger.transactions.put new } row =
        differences host existing row := by
      rw [← differences_congr row hnew.frozen]
      unfold reportedFor representative
      rcases hsource with ⟨hown, -⟩ | ⟨hnone, hlookup, -⟩
      · rw [← hown, ← hid, KeyedTable.find_put_self]
        rfl
      · rw [hunknown _ hnone, hlookup]
        simp [← hid]
    rw [List.flatMap_append, hold, List.flatMap_singleton, hself, hsummary,
      frozenFieldAnomalies_eq_differences]
    exact congrArg (· ++ _) (h.reported fun x hx => hdescriptions x (List.mem_append_left _ hx))

/-- **One row.**  Every iteration of the upsert loop extends the progress. -/
theorem UpsertProgress.step {state : UpsertSummary × Ledger}
    (h : UpsertProgress host aliases start done state)
    (haliases : ∀ id canonical, aliases.lookup id = some canonical →
      canonical ∈ start.transactions.rows)
    (hstart : ∀ row ∈ start.transactions.rows, Unstamped row)
    (hrow : row.postedSeenAt = none) :
    UpsertProgress host aliases start (done ++ [row]) (upsertStep host aliases state row) := by
  obtain ⟨summary, ledger⟩ := state
  unfold upsertStep
  dsimp only
  cases hexisting : (ledger.transactions.find row.id).or (aliases.lookup row.id) with
  | none =>
      obtain ⟨hnone, halias⟩ := Option.or_eq_none_iff.mp hexisting
      exact h.insert haliases hrow hnone halias _
  | some existing =>
      apply h.refresh haliases hstart hexisting
      split_ifs <;> rfl

end

/-- The aliases of an accepted batch point at stored rows. -/
theorem batchAliases_stored {rows : List LedgerTransaction} {timezone : Option String}
    {ledger : Ledger} {aliases : List (String × LedgerTransaction)}
    (h : batchAliases host rows timezone ledger = .ok aliases) {id : String}
    {canonical : LedgerTransaction} (hlookup : aliases.lookup id = some canonical) :
    canonical ∈ ledger.transactions.rows := by
  unfold batchAliases at h
  split at h
  · obtain rfl := Except.ok.inj h
    cases hlookup
  · obtain ⟨l₁, l₂, hsplit, -⟩ := List.lookup_eq_some_iff.mp hlookup
    have hentry : (id, canonical) ∈ aliases := by
      rw [hsplit]
      exact List.mem_append_right _ List.mem_cons_self
    obtain ⟨row, -, -, hcanonical⟩ := (resolveArchiveInstallments_ok h).1 _ hentry
    exact (List.mem_filter.mp (canonicalRow_ok_some hcanonical).1).1

/-- **One batch.**  An accepted upsert of unstamped rows ends in a state that
has processed all of them. -/
theorem upsertTransactions_progress {rows : List LedgerTransaction} {timezone : Option String}
    {s s' : Session} {summary : UpsertSummary}
    (h : upsertTransactions host rows timezone s = .ok summary s')
    (hstart : ∀ row ∈ s.ledger.transactions.rows, Unstamped row)
    (hrows : ∀ row ∈ rows, row.postedSeenAt = none) :
    ∃ aliases ledger, batchAliases host rows timezone s.ledger = .ok aliases ∧
      UpsertProgress host aliases s.ledger rows (summary, ledger) ∧
      s'.ledger = { ledger with
        anomalies := ledger.anomalies ++ summary.anomalies.map Anomaly.stored } := by
  obtain ⟨aliases, ledger, hresolved, hrun, hledger⟩ := upsertTransactions_ok host h
  refine ⟨aliases, ledger, hresolved, ?_, hledger⟩
  rw [← hrun]
  apply Runs.run_history (UpsertProgress.start hstart)
  intro done row state hinitial hdone
  have hrow : row ∈ rows := hinitial.subset (List.mem_append_right _ List.mem_cons_self)
  exact hdone.step (fun _ _ => batchAliases_stored hresolved) hstart (hrows row hrow)

/-! ## Runs of batches -/

end

/-- One call of `upsertTransactions`, with the statements that fail in it. -/
structure UpsertBatch where
  rows : List LedgerTransaction
  timezone : Option String
  faults : List Bool

section
variable (host : Host)

/-- A batch, with the ledger it leaves. -/
def upsertOutcome (ledger : Ledger) (batch : UpsertBatch) :
    EStateM.Result BridgeError Session UpsertSummary :=
  upsertTransactions host batch.rows batch.timezone ⟨ledger, batch.faults⟩

/-- The ledger a call leaves behind. -/
def upsertBatch (ledger : Ledger) (batch : UpsertBatch) : Ledger :=
  (Transactional.storeAfter (upsertOutcome host ledger batch)).ledger

/-- The ledger after a run of calls on an empty one. -/
def ledgerAfter (batches : List UpsertBatch) : Ledger :=
  Runs.run (upsertBatch host) emptyLedger batches

/-- The row that stores its id in a batch: the first with that id, which no stored row has and
no archived row stands for. -/
def FirstInserted (ledger : Ledger) (batch : UpsertBatch) (origin : LedgerTransaction) : Prop :=
  batch.rows.find? (fun row => row.id = origin.id) = some origin ∧
    ledger.transactions.find origin.id = none ∧
    ∃ aliases, batchAliases host batch.rows batch.timezone ledger = .ok aliases ∧
      aliases.lookup origin.id = none

/-- `origin` is the row whose insertion stored its id. -/
def InsertedBy (batches : List UpsertBatch) (origin : LedgerTransaction) : Prop :=
  ∃ earlier batch later, batches = earlier ++ batch :: later ∧
    FirstInserted host (ledgerAfter host earlier) batch origin ∧
    ((ledgerAfter host (earlier ++ [batch])).transactions.find origin.id).isSome

/-- An accepted batch appends exactly the differences between its rows and
the stored rows that stand for them; a refused one changes nothing. -/
def DifferencesLogged (ledger : Ledger) (batch : UpsertBatch) (ledger' : Ledger) : Prop :=
  match upsertOutcome host ledger batch with
  | .error _ _ => ledger' = ledger
  | .ok _ _ => ∃ aliases, batchAliases host batch.rows batch.timezone ledger = .ok aliases ∧
      (∀ row ∈ batch.rows, (representative aliases ledger' row).isSome) ∧
      ledger'.anomalies = ledger.anomalies ++ batch.rows.flatMap (reportedFor host aliases ledger')

/-- **The condition.**  The database keeps the texts of a batch that resolves: the descriptions
and booked dates of its rows, and every frozen text of the rows it inserts. -/
structure KeptBatch (ledger : Ledger) (batch : UpsertBatch) (_after : Ledger) : Prop where
  compared : ∀ aliases, batchAliases host batch.rows batch.timezone ledger = .ok aliases →
    ∀ row ∈ batch.rows, ComparedKept row
  frozen : ∀ origin, FirstInserted host ledger batch origin →
    origin.stored.frozen = origin.frozen

/-- The stored texts that are compared come back from the log. -/
def AllCompared (ledger : Ledger) : Prop := ∀ row ∈ ledger.transactions.rows, ComparedKept row

/-- Every row of the ledger is unstamped while pending. -/
def AllUnstamped (ledger : Ledger) : Prop := ∀ row ∈ ledger.transactions.rows, Unstamped row

/-- Every row of an accepted batch is represented by a stored row. -/
theorem UpsertProgress.representative_isSome {aliases : List (String × LedgerTransaction)}
    {start ledger : Ledger} {done : List LedgerTransaction} {summary : UpsertSummary}
    (h : UpsertProgress host aliases start done (summary, ledger))
    (haliases : ∀ id canonical, aliases.lookup id = some canonical →
      canonical ∈ start.transactions.rows)
    {row : LedgerTransaction} (hrow : row ∈ done) :
    (representative aliases ledger row).isSome := by
  unfold representative
  rcases h.known row hrow with hown | halias
  · exact Option.isSome_or.trans (by simp [hown])
  · obtain ⟨canonical, hcanonical⟩ := Option.isSome_iff_exists.mp halias
    obtain ⟨stored, hfind, -⟩ := h.alias_stored haliases hcanonical
    rw [hcanonical]
    simp [hfind]

/-- What one call does, whatever the texts are. -/
structure BatchFreezes (ledger : Ledger) (batch : UpsertBatch) (after : Ledger) : Prop where
  preserved : Preserved host ledger after
  unstamped : AllUnstamped after
  inserted : ∀ row ∈ after.transactions.rows, ledger.transactions.find row.id = none →
    ∃ origin, origin.id = row.id ∧ FirstInserted host ledger batch origin ∧
      Freeze host origin.stored row
  logged : AllCompared ledger → KeptBatch host ledger batch after →
    AllCompared after ∧ DifferencesLogged host ledger batch after

/-- After a batch whose texts are kept, all stored texts that are compared are. -/
theorem UpsertProgress.allCompared {aliases : List (String × LedgerTransaction)}
    {start ledger : Ledger} {done : List LedgerTransaction} {summary : UpsertSummary}
    (h : UpsertProgress host aliases start done (summary, ledger)) (hstart : AllCompared start)
    (hdone : ∀ row ∈ done, ComparedKept row) : AllCompared ledger := by
  intro row hrow
  cases hfind : start.transactions.find row.id with
  | some old =>
      have hold := KeyedTable.mem_of_find hfind
      obtain ⟨row', hfind', hfreeze⟩ := h.preserved old hold
      rw [KeyedTable.key_of_find hfind] at hfind'
      obtain rfl := Option.some.inj (hfind'.symm.trans (KeyedTable.find_of_mem hrow))
      exact (hstart old hold).of_frozen hfreeze.frozen
  | none =>
      obtain ⟨-, origin, horigin, hfreeze⟩ := h.inserted row hrow hfind
      have hmem := List.mem_of_find?_eq_some horigin
      exact (hdone origin hmem).stored.of_frozen hfreeze.frozen

/-- The reported differences of kept texts come back from the log. -/
theorem map_stored_reportedFor {aliases : List (String × LedgerTransaction)} {ledger : Ledger}
    (hledger : AllCompared ledger) {rows : List LedgerTransaction}
    (hrows : ∀ row ∈ rows, ComparedKept row) :
    (rows.flatMap (reportedFor host aliases ledger)).map Anomaly.stored =
      rows.flatMap (reportedFor host aliases ledger) := by
  rw [List.map_flatMap]
  apply List.flatMap_congr
  intro row hrow
  unfold reportedFor
  cases hstored : representative aliases ledger row with
  | none => rfl
  | some stored =>
      have hmem : stored ∈ ledger.transactions.rows := by
        unfold representative at hstored
        rcases Option.or_eq_some_iff.mp hstored with hown | ⟨-, halias⟩
        · exact KeyedTable.mem_of_find hown
        · obtain ⟨canonical, -, hfind⟩ := Option.bind_eq_some_iff.mp halias
          exact KeyedTable.mem_of_find hfind
      exact map_stored_differences (hledger stored hmem) (hrows row hrow)

/-- **One call.**  Stored rows are preserved, new rows start from what is stored of a row of the
batch, and where the texts are kept exactly the differences are logged. -/
theorem upsertBatch_freezes {ledger : Ledger} {batch : UpsertBatch}
    (hstart : AllUnstamped ledger) (hrows : ∀ row ∈ batch.rows, row.postedSeenAt = none) :
    BatchFreezes host ledger batch (upsertBatch host ledger batch) := by
  unfold upsertBatch
  cases houtcome : upsertOutcome host ledger batch with
  | error e s' =>
      have hsame : s'.ledger = ledger := upsertTransactions_error host houtcome
      simp only [Transactional.storeAfter, hsame]
      refine ⟨fun row hrow => ⟨row, KeyedTable.find_of_mem hrow, Freeze.refl row⟩, hstart, ?_, ?_⟩
      · intro row hrow hnone
        rw [KeyedTable.find_of_mem hrow] at hnone
        cases hnone
      · intro hcompared _
        refine ⟨hcompared, ?_⟩
        unfold DifferencesLogged
        rw [houtcome]
  | ok summary s' =>
      obtain ⟨aliases, after, hresolved, hprogress, hledger⟩ :=
        upsertTransactions_progress houtcome hstart hrows
      simp only [Transactional.storeAfter, hledger]
      refine ⟨hprogress.preserved, hprogress.unstamped, ?_, ?_⟩
      · intro row hrow hnone
        obtain ⟨halias, origin, hfirst, hfreeze⟩ := hprogress.inserted row hrow hnone
        have hid : origin.id = row.id := by simpa using List.find?_some hfirst
        refine ⟨origin, hid, ⟨?_, ?_, aliases, hresolved, ?_⟩, hfreeze⟩
        · rw [hid]
          exact hfirst
        · rw [hid]
          exact hnone
        · rw [hid]
          exact halias
      · intro hcompared hkept
        have hdone := hkept.compared aliases hresolved
        have hafter := hprogress.allCompared host hcompared hdone
        refine ⟨hafter, ?_⟩
        unfold DifferencesLogged
        rw [houtcome]
        refine ⟨aliases, hresolved, ?_, ?_⟩
        · intro row hrow
          exact hprogress.representative_isSome host (fun _ _ => batchAliases_stored hresolved) hrow
        · have hlog := hprogress.reported fun row hrow => (hdone row hrow).1
          change after.anomalies ++ summary.anomalies.map Anomaly.stored = _
          rw [hprogress.anomalies, hlog, map_stored_reportedFor host hafter hdone]
          rfl

/-- A row that was inserted was inserted. -/
theorem InsertedBy.append {batches : List UpsertBatch} {origin : LedgerTransaction}
    (h : InsertedBy host batches origin) (batch : UpsertBatch) :
    InsertedBy host (batches ++ [batch]) origin := by
  obtain ⟨earlier, inserting, later, rfl, hrest⟩ := h
  exact ⟨earlier, inserting, later ++ [batch], by simp, hrest⟩

/-- The ledger has no stamps but its own. -/
theorem allUnstamped_ledgerAfter {batches : List UpsertBatch}
    (hfresh : ∀ batch ∈ batches, ∀ row ∈ batch.rows, row.postedSeenAt = none) :
    AllUnstamped (ledgerAfter host batches) := by
  have hstart : AllUnstamped emptyLedger := fun row hrow => absurd hrow List.not_mem_nil
  refine Runs.run_history (I := fun _ => AllUnstamped) hstart ?_
  intro done batch ledger hinitial hledger
  have hbatch := hinitial.subset (List.mem_append_right _ List.mem_cons_self)
  exact (upsertBatch_freezes host hledger (hfresh batch hbatch)).unstamped

/-- Rows stored after part of a run are preserved by the rest of it. -/
theorem preserved_ledgerAfter {earlier later : List UpsertBatch}
    (hfresh : ∀ batch ∈ earlier ++ later, ∀ row ∈ batch.rows, row.postedSeenAt = none) :
    Preserved host (ledgerAfter host earlier) (ledgerAfter host (earlier ++ later)) := by
  have hstart : AllUnstamped (ledgerAfter host earlier) :=
    allUnstamped_ledgerAfter host fun batch hbatch => hfresh batch (List.mem_append_left _ hbatch)
  unfold ledgerAfter at hstart ⊢
  rw [Runs.run_append]
  refine (Runs.run_history (I := fun _ ledger => AllUnstamped ledger ∧
    Preserved host (Runs.run (upsertBatch host) emptyLedger earlier) ledger) ?_ ?_).2
  · exact ⟨hstart, fun row hrow => ⟨row, KeyedTable.find_of_mem hrow, Freeze.refl row⟩⟩
  · rintro done batch ledger hinitial ⟨hledger, hpreserved⟩
    have hbatch := hinitial.subset (List.mem_append_right _ List.mem_cons_self)
    have hstep := upsertBatch_freezes host hledger
      (hfresh batch (List.mem_append_right _ hbatch))
    refine ⟨hstep.unstamped, ?_⟩
    intro row hrow
    obtain ⟨row', hfind, hfreeze⟩ := hpreserved row hrow
    obtain ⟨row'', hfind', hfreeze'⟩ := hstep.preserved row' (KeyedTable.mem_of_find hfind)
    rw [hfreeze.id_eq] at hfind'
    exact ⟨row'', hfind', hfreeze.trans hfreeze'⟩

/-- Every stored row goes back to the row that inserted it. -/
theorem origin_ledgerAfter {batches : List UpsertBatch}
    (hfresh : ∀ batch ∈ batches, ∀ row ∈ batch.rows, row.postedSeenAt = none) :
    ∀ row ∈ (ledgerAfter host batches).transactions.rows,
      ∃ origin, InsertedBy host batches origin ∧ Freeze host origin.stored row := by
  unfold ledgerAfter
  refine (Runs.run_history (I := fun done ledger => ledger = ledgerAfter host done ∧
    AllUnstamped ledger ∧ ∀ row ∈ ledger.transactions.rows,
      ∃ origin, InsertedBy host done origin ∧ Freeze host origin.stored row) ?_ ?_).2.2
  · exact ⟨rfl, fun row hrow => absurd hrow List.not_mem_nil,
      fun row hrow => absurd hrow List.not_mem_nil⟩
  · rintro done batch ledger hinitial ⟨hrun, hledger, horigin⟩
    have hbatch := hinitial.subset (List.mem_append_right _ List.mem_cons_self)
    have hstep := upsertBatch_freezes host hledger (hfresh batch hbatch)
    have hrun' : upsertBatch host ledger batch = ledgerAfter host (done ++ [batch]) := by
      unfold ledgerAfter at hrun ⊢
      rw [Runs.run_append, ← hrun]
      rfl
    refine ⟨hrun', hstep.unstamped, ?_⟩
    intro row hrow
    cases hfind : ledger.transactions.find row.id with
    | some old =>
        have hmem := KeyedTable.mem_of_find hfind
        have hid : old.id = row.id := KeyedTable.key_of_find hfind
        obtain ⟨origin, hby, hfreeze⟩ := horigin old hmem
        obtain ⟨row', hfind', hfreeze'⟩ := hstep.preserved old hmem
        rw [hid, KeyedTable.find_of_mem hrow] at hfind'
        obtain rfl := Option.some.inj hfind'
        exact ⟨origin, hby.append host batch, hfreeze.trans hfreeze'⟩
    | none =>
        obtain ⟨origin, hid, hfirst, hfreeze⟩ := hstep.inserted row hrow hfind
        refine ⟨origin, ⟨done, batch, [], rfl, ?_, ?_⟩, hfreeze⟩
        · rw [← hrun]
          exact hfirst
        · rw [hid, ← hrun', KeyedTable.find_of_mem hrow]
          rfl

/-- What happened to a stored row since it was stored happened to the row as it was sent, where
its frozen texts are kept. -/
theorem Freeze.of_stored {origin row : LedgerTransaction} (h : Freeze host origin.stored row)
    (hkept : origin.stored.frozen = origin.frozen) : Freeze host origin row where
  frozen := h.frozen.trans hkept
  status := h.status
  unstamped := h.unstamped
  stamped := h.stamped
  chargeDate := h.chargeDate
  category := by
    intro hsome
    apply h.category
    simpa [LedgerTransaction.stored] using hsome
  memo := by
    intro hsome
    apply h.memo
    simpa [LedgerTransaction.stored] using hsome
  archive := h.archive

/-- The rows that a run with kept texts inserts keep their frozen texts. -/
theorem InsertedBy.frozen_kept {batches : List UpsertBatch} {origin : LedgerTransaction}
    (h : InsertedBy host batches origin)
    (hkept : Runs.Along (upsertBatch host) (KeptBatch host) emptyLedger batches) :
    origin.stored.frozen = origin.frozen := by
  obtain ⟨earlier, batch, later, rfl, hfirst, -⟩ := h
  have hbatch := Runs.along_iff_prefix.mp hkept earlier batch ⟨later, by simp⟩
  exact hbatch.frozen origin hfirst

/-- **Freeze semantics of a run.**  Every row stored at an earlier point is
still stored and has only been refreshed; every stored row has only been
refreshed since its insertion, and is stamped exactly when it has moved from
pending to posted; and every call appends exactly the differences of its batch
to the anomaly log. -/
structure FreezesRun (batches : List UpsertBatch) : Prop where
  preserved : ∀ earlier later, batches = earlier ++ later →
    Preserved host (ledgerAfter host earlier) (ledgerAfter host batches)
  origins : ∀ row ∈ (ledgerAfter host batches).transactions.rows,
    ∃ origin, InsertedBy host batches origin ∧ Freeze host origin row ∧
      (row.postedSeenAt.isSome ↔ origin.status = .pending ∧ row.status = .posted)
  logged : Runs.Along (upsertBatch host) (DifferencesLogged host) emptyLedger batches

/-- **Freeze semantics over runs.**  A sequence of upserts on an empty ledger,
with whatever statements failing, whose rows arrive unstamped and whose texts
the database keeps freezes what it stores. -/
theorem freeze_semantics_over_runs (batches : List UpsertBatch)
    (hfresh : ∀ batch ∈ batches, ∀ row ∈ batch.rows, row.postedSeenAt = none)
    (hkept : Runs.Along (upsertBatch host) (KeptBatch host) emptyLedger batches) :
    FreezesRun host batches := by
  refine ⟨?_, ?_, ?_⟩
  · rintro earlier later rfl
    exact preserved_ledgerAfter host hfresh
  · intro row hrow
    obtain ⟨origin, hby, hstored⟩ := origin_ledgerAfter host hfresh row hrow
    have hfreeze := hstored.of_stored host (hby.frozen_kept host hkept)
    have hby' := hby
    obtain ⟨earlier, batch, later, hsplit, hfirst, -⟩ := hby'
    have hbatch : batch ∈ batches := by
      rw [hsplit]
      exact List.mem_append_right _ List.mem_cons_self
    have hnone := hfresh batch hbatch origin (List.mem_of_find?_eq_some hfirst.1)
    exact ⟨origin, hby, hfreeze, hfreeze.stamped_iff hnone⟩
  · have hinputs := hkept.and_inputs hfresh
    refine @Runs.Along.of_invariant _ _ _ _ _
      (fun ledger => AllUnstamped ledger ∧ AllCompared ledger) _ _ hinputs
        ⟨fun row hrow => absurd hrow List.not_mem_nil,
          fun row hrow => absurd hrow List.not_mem_nil⟩ ?_
    rintro ledger batch ⟨hunstamped, hcompared⟩ ⟨hrows, hbatch⟩
    have hstep := upsertBatch_freezes host hunstamped hrows
    obtain ⟨hnext, hlogged⟩ := hstep.logged hcompared hbatch
    exact ⟨⟨hstep.unstamped, hnext⟩, hlogged⟩

end

/-- A pending card purchase as the scraper first reports it. -/
def pendingPurchase : LedgerTransaction where
  id := "visaCal:1234:a1"
  accountId := "visaCal:1234"
  company := "visaCal"
  identifier := none
  bookedDate := "2026-06-01"
  chargeDate := none
  amount := -12
  currency := "ILS"
  description := "Coffee"
  memo := none
  status := .pending
  installmentNumber := none
  installmentTotal := none
  originalAmount := none
  originalCurrency := none
  category := none
  synthetic := false
  firstSeen := 1
  lastSeen := 1
  idSchemeVersion := idSchemeVersion
  raw := .null

/-- The purchase is reported pending, then posted at another amount. -/
def purchaseBatches : List UpsertBatch :=
  [⟨[pendingPurchase], some "Asia/Jerusalem", []⟩,
   ⟨[{ pendingPurchase with status := .posted, amount := -13, lastSeen := 2 }],
     some "Asia/Jerusalem", []⟩]

/-- A purchase is posted once and logged when its description changes. -/
theorem freeze_semantics_purchase :
    (ledgerAfter asciiHost purchaseBatches).transactions.rows.map
        (fun row => (row.amount, row.status, row.postedSeenAt)) =
      [(-12, TransactionStatus.posted, some 2)] ∧
    FreezesRun asciiHost purchaseBatches := by
  have hfresh : ∀ batch ∈ purchaseBatches, ∀ row ∈ batch.rows, row.postedSeenAt = none := by
    simp [purchaseBatches, pendingPurchase]
  have hcompared : ∀ batch ∈ purchaseBatches, ∀ row ∈ batch.rows, ComparedKept row := by
    unfold ComparedKept
    decide +kernel
  have hfrozen : ∀ batch ∈ purchaseBatches, ∀ row ∈ batch.rows,
      row.stored.frozen = row.frozen := by decide +kernel
  have hkept : Runs.Along (upsertBatch asciiHost) (KeptBatch asciiHost) emptyLedger
      purchaseBatches := by
    rw [Runs.along_iff_prefix]
    intro before batch hinitial
    have hbatch := hinitial.subset (List.mem_append_right _ List.mem_cons_self)
    exact ⟨fun _ _ => hcompared batch hbatch,
      fun origin hfirst => hfrozen batch hbatch origin (List.mem_of_find?_eq_some hfirst.1)⟩
  exact ⟨by decide +kernel, freeze_semantics_over_runs asciiHost purchaseBatches hfresh hkept⟩

/-- A purchase whose description was cut inside a character, reported twice. -/
def cutBatches : List UpsertBatch :=
  let cut := { pendingPurchase with description := (JsText.ofString "Coffee 😀").slice 8 }
  [⟨[cut], some "Asia/Jerusalem", []⟩, ⟨[cut], some "Asia/Jerusalem", []⟩]

/-- The stored description is not the one that was sent, so the second report of the unchanged
row logs an anomaly. -/
theorem cut_description_logged :
    (∀ batch ∈ cutBatches, ∀ row ∈ batch.rows, row.postedSeenAt = none) ∧
      (ledgerAfter asciiHost cutBatches).anomalies.map (·.field) = [.description] ∧
      ¬ FreezesRun asciiHost cutBatches := by
  refine ⟨by decide +kernel, by decide +kernel, fun h => ?_⟩
  have hsent : ∀ batch ∈ cutBatches, ∀ row ∈ batch.rows,
      row.description = (JsText.ofString "Coffee 😀").slice 8 := by decide +kernel
  have hstored : ∀ row ∈ (ledgerAfter asciiHost cutBatches).transactions.rows,
      row.description ≠ (JsText.ofString "Coffee 😀").slice 8 := by decide +kernel
  have hsome : (ledgerAfter asciiHost cutBatches).transactions.rows ≠ [] := by decide +kernel
  obtain ⟨row, hrow⟩ := List.exists_mem_of_ne_nil _ hsome
  obtain ⟨origin, ⟨earlier, batch, later, hsplit, hfirst, -⟩, hfreeze, -⟩ := h.origins row hrow
  have hbatch : batch ∈ cutBatches := by
    rw [hsplit]
    exact List.mem_append_right _ List.mem_cons_self
  have horigin := hsent batch hbatch origin (List.mem_of_find?_eq_some hfirst.1)
  have hsame : row.description = origin.description :=
    congrArg FrozenFields.description hfreeze.frozen
  exact hstored row hrow (hsame.trans horigin)

end SimplefinBridge
