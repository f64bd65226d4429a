import SimplefinBridge.SqliteLedger

/-!
# No loss and no merging

An upsert neither drops a row nor lets two rows share one stored row.  A row
of the batch is represented by the stored row with its own id or, when there
is none, by the only archived installment that matches it; `Represents` says
so without mentioning how the code finds it.

The counting part follows the stored ids through the loop
(`IdProgress`); the one-to-one part rests on the claims map of the
resolution, which sees the incoming ids and the aliases together.
-/

namespace SimplefinBridge

section
variable {host : Host}

/-- `stored` is the row of the ledger `after` that stands for `row`. -/
def Represents (host : Host) (timezone : String) (before after : Ledger)
    (row stored : LedgerTransaction) : Prop :=
  stored ∈ after.transactions.rows ∧
    (stored.id = row.id ∨
      (after.transactions.find row.id = none ∧
        ∃ archive ∈ before.transactions.rows, archive.id = stored.id ∧ archive.id ≠ row.id ∧
          matchesArchiveInstallment host archive row timezone = true ∧
          ∀ other ∈ before.transactions.rows, other.id ≠ row.id →
            matchesArchiveInstallment host other row timezone = true → other = archive))

/-- The row has neither a stored row nor an alias. -/
def isNew (aliases : List (String × LedgerTransaction)) (start : Ledger)
    (row : LedgerTransaction) : Bool :=
  (start.transactions.find row.id).isNone && (aliases.lookup row.id).isNone

def Ledger.ids (ledger : Ledger) : List String :=
  ledger.transactions.rows.map LedgerTransaction.id

theorem mem_ids {ledger : Ledger} {id : String} :
    id ∈ ledger.ids ↔ (ledger.transactions.find id).isSome :=
  KeyedTable.find_isSome.symm

theorem mem_ids_of_mem {ledger : Ledger} {row : LedgerTransaction}
    (h : row ∈ ledger.transactions.rows) : row.id ∈ ledger.ids :=
  List.mem_map_of_mem h

theorem ids_refresh (ledger : Ledger) (existing row : LedgerTransaction) :
    (ledger.refresh host existing row).ids = ledger.ids := by
  unfold Ledger.refresh
  cases hfind : ledger.transactions.find existing.id with
  | none => rfl
  | some stored =>
      have hid : stored.id = existing.id := KeyedTable.key_of_find hfind
      have hsome : (ledger.transactions.find (refreshedRow host stored existing row).id).isSome := by
        change (ledger.transactions.find stored.id).isSome
        rw [hid, hfind]
        rfl
      change (ledger.transactions.put _).rows.map _ = _
      rw [KeyedTable.map_key_put, if_pos hsome]
      rfl

/-! ## Counting -/

/-- The ids and the summary after the rows `done` of a batch. -/
structure IdProgress (aliases : List (String × LedgerTransaction)) (start : Ledger)
    (done : List LedgerTransaction) (state : UpsertSummary × Ledger) : Prop where
  ids : state.2.ids = start.ids ++ (done.filter (isNew aliases start)).map LedgerTransaction.id
  inserted : state.1.inserted = (done.filter (isNew aliases start)).length
  total : state.1.inserted + state.1.updated + state.1.unchanged = done.length

/-- A row whose id the batch has not used before finds in the ledger what it
would have found when the batch began. -/
theorem IdProgress.find_eq_none {aliases : List (String × LedgerTransaction)} {start : Ledger}
    {done : List LedgerTransaction} {state : UpsertSummary × Ledger} {row : LedgerTransaction}
    (h : IdProgress aliases start done state) (hnew : row.id ∉ done.map LedgerTransaction.id) :
    state.2.transactions.find row.id = none ↔ start.transactions.find row.id = none := by
  have hmem : row.id ∈ state.2.ids ↔ row.id ∈ start.ids := by
    rw [h.ids, List.mem_append]
    constructor
    · rintro (hstart | hdone)
      · exact hstart
      · have hsub := (List.filter_sublist (p := isNew aliases start) (l := done)).map
          LedgerTransaction.id
        exact absurd (hsub.subset hdone) hnew
    · exact Or.inl
  rw [mem_ids, mem_ids] at hmem
  rw [← Option.not_isSome_iff_eq_none, ← Option.not_isSome_iff_eq_none, hmem]

theorem IdProgress.step {aliases : List (String × LedgerTransaction)} {start : Ledger}
    {done : List LedgerTransaction} {state : UpsertSummary × Ledger} {row : LedgerTransaction}
    (h : IdProgress aliases start done state) (hnew : row.id ∉ done.map LedgerTransaction.id) :
    IdProgress aliases start (done ++ [row]) (upsertStep host aliases state row) := by
  have hstart := h.find_eq_none hnew
  obtain ⟨summary, ledger⟩ := state
  have htotal := h.total
  unfold upsertStep
  dsimp only at htotal hstart ⊢
  cases hexisting : (ledger.transactions.find row.id).or (aliases.lookup row.id) with
  | none =>
      obtain ⟨hnone, halias⟩ := Option.or_eq_none_iff.mp hexisting
      have hisNew : isNew aliases start row = true := by
        simp [isNew, hstart.mp hnone, halias]
      have hfilter : (done ++ [row]).filter (isNew aliases start) =
          done.filter (isNew aliases start) ++ [row] := by
        rw [List.filter_append, List.filter_cons_of_pos hisNew, List.filter_nil]
      refine ⟨?_, ?_, ?_⟩
      · rw [hfilter, List.map_append, ← List.append_assoc, ← h.ids]
        change (ledger.transactions.put row.stored).rows.map _ = _
        rw [KeyedTable.map_key_put, LedgerTransaction.stored_id, hnone]
        rfl
      · rw [hfilter, List.length_append, ← h.inserted]
        rfl
      · rw [List.length_append, List.length_singleton]
        dsimp only
        omega
  | some existing =>
      have hisNew : isNew aliases start row = false := by
        cases hown : ledger.transactions.find row.id with
        | some own =>
            have hsome : start.transactions.find row.id ≠ none := by
              intro hnone
              rw [hstart.mpr hnone] at hown
              cases hown
            simp [isNew, hsome]
        | none =>
            rw [hown] at hexisting
            have halias : aliases.lookup row.id = some existing := hexisting
            simp [isNew, halias]
      have hfilter : (done ++ [row]).filter (isNew aliases start) =
          done.filter (isNew aliases start) := by
        rw [List.filter_append, List.filter_cons_of_neg (by simp [hisNew]), List.filter_nil,
          List.append_nil]
      refine ⟨?_, ?_, ?_⟩
      · rw [hfilter, ← h.ids]
        exact ids_refresh ledger existing row
      · rw [hfilter, ← h.inserted]
        dsimp only
        split_ifs <;> rfl
      · rw [List.length_append, List.length_singleton]
        dsimp only
        split_ifs
        · dsimp only
          omega
        · dsimp only
          omega

/-- The ids and counts after a whole batch with pairwise distinct ids. -/
theorem idProgress_run {aliases : List (String × LedgerTransaction)} {ledger : Ledger}
    {rows : List LedgerTransaction} (hdistinct : (rows.map LedgerTransaction.id).Nodup) :
    IdProgress aliases ledger rows (Runs.run (upsertStep host aliases) ({}, ledger) rows) := by
  have hstart : IdProgress aliases ledger [] ({}, ledger) := ⟨by simp, rfl, rfl⟩
  apply Runs.run_history hstart
  intro done row state hinitial hdone
  apply hdone.step
  have hnodup := hdistinct.sublist (hinitial.sublist.map LedgerTransaction.id)
  rw [List.map_append, List.map_singleton] at hnodup
  intro hmem
  exact (List.nodup_append.mp hnodup).2.2 _ hmem _ List.mem_cons_self rfl

/-! ## Representation -/

/-- A stored row that is the only match of an incoming one is its canonical
row. -/
theorem canonicalRow_of_matches {stored : List LedgerTransaction} {row archive : LedgerTransaction}
    {timezone : String} {canonical : Option LedgerTransaction}
    (hok : canonicalRow host stored timezone row = .ok canonical)
    (hown : ∀ other ∈ stored, other.id ≠ row.id) (hmem : archive ∈ stored)
    (hmatches : matchesArchiveInstallment host archive row timezone = true) :
    ∃ found, canonical = some found ∧ found ∈ stored ∧
      matchesArchiveInstallment host found row timezone = true := by
  cases canonical with
  | some found =>
      obtain ⟨hfound, hid | ⟨-, hmatch, -⟩⟩ := canonicalRow_ok_some hok
      · exact absurd hid (hown found hfound)
      · exact ⟨found, rfl, hfound, hmatch⟩
  | none =>
      exfalso
      unfold canonicalRow at hok
      split at hok
      · cases hok
      · obtain ⟨-, haccount, hidentifier⟩ := company_of_matches hmatches
        have hcandidate : archive ∈ stored.filter fun other =>
            other.accountId = row.accountId && other.identifier = row.identifier := by
          rw [List.mem_filter]
          exact ⟨hmem, by simp [haccount, hidentifier]⟩
        have hno := findArchiveInstallment_ok_none hok hcandidate (hown archive hmem)
        rw [hmatches] at hno
        cases hno

/-- A matching stored row is among the candidates of the resolution. -/
theorem mem_archiveCandidates {ledger : Ledger} {row archive : LedgerTransaction}
    {timezone : String} (hmem : archive ∈ ledger.transactions.rows)
    (hmatches : matchesArchiveInstallment host archive row timezone = true) :
    archive ∈ archiveCandidates ledger := by
  unfold archiveCandidates
  rw [List.mem_filter]
  exact ⟨hmem, by simp [(company_of_matches hmatches).1]⟩

/-- What an accepted batch with distinct ids has resolved and stored. -/
structure AcceptedBatch (host : Host) (timezone : String) (rows : List LedgerTransaction)
    (before after : Ledger) (aliases : List (String × LedgerTransaction)) : Prop where
  resolved : resolveArchiveInstallments host rows (archiveCandidates before) timezone = .ok aliases
  distinct : (rows.map LedgerTransaction.id).Nodup
  ids : after.ids = before.ids ++ (rows.filter (isNew aliases before)).map LedgerTransaction.id

section
variable {timezone : String} {rows : List LedgerTransaction} {before after : Ledger}
  {aliases : List (String × LedgerTransaction)} {row stored archive : LedgerTransaction}

/-- Two rows of the batch with one id are the same row. -/
theorem AcceptedBatch.eq_of_id_eq (h : AcceptedBatch host timezone rows before after aliases)
    {a b : LedgerTransaction} (ha : a ∈ rows) (hb : b ∈ rows) (hid : a.id = b.id) : a = b :=
  List.inj_on_of_nodup_map h.distinct ha hb hid

/-- A row that no row of the ledger has the id of had no row before. -/
theorem AcceptedBatch.find_before (h : AcceptedBatch host timezone rows before after aliases)
    {id : String} (hnone : after.transactions.find id = none) :
    before.transactions.find id = none := by
  rw [← Option.not_isSome_iff_eq_none, ← mem_ids] at hnone ⊢
  intro hmem
  apply hnone
  rw [h.ids]
  exact List.mem_append_left _ hmem

/-- The archived row that stands for a row of the batch is its alias. -/
theorem AcceptedBatch.alias_of_match (h : AcceptedBatch host timezone rows before after aliases)
    (hrow : row ∈ rows) (hnone : before.transactions.find row.id = none)
    (hmem : archive ∈ before.transactions.rows)
    (hmatches : matchesArchiveInstallment host archive row timezone = true)
    (hunique : ∀ other ∈ before.transactions.rows, other.id ≠ row.id →
      matchesArchiveInstallment host other row timezone = true → other = archive) :
    (row.id, archive) ∈ aliases := by
  obtain ⟨-, hcomplete, -⟩ := resolveArchiveInstallments_ok h.resolved
  obtain ⟨canonical, hcanonical, hentry⟩ := hcomplete row hrow
  have hne : ∀ other ∈ before.transactions.rows, other.id ≠ row.id :=
    KeyedTable.find_eq_none.mp hnone
  obtain ⟨found, rfl, hfound, hmatch⟩ := canonicalRow_of_matches hcanonical
    (fun other hother => hne other (List.mem_filter.mp hother).1)
    (mem_archiveCandidates hmem hmatches) hmatches
  have hfound' := (List.mem_filter.mp hfound).1
  obtain rfl := hunique found hfound' (hne found hfound') hmatch
  exact hentry found rfl

/-- A row of the batch whose id is already stored among the candidates claims
that row. -/
theorem AcceptedBatch.alias_of_own (h : AcceptedBatch host timezone rows before after aliases)
    (hrow : row ∈ rows) (hmem : archive ∈ archiveCandidates before)
    (hid : archive.id = row.id) : (row.id, archive) ∈ aliases := by
  obtain ⟨-, hcomplete, -⟩ := resolveArchiveInstallments_ok h.resolved
  obtain ⟨canonical, hcanonical, hentry⟩ := hcomplete row hrow
  obtain ⟨existing, hexisting, hexistingId⟩ := @canonicalRow_of_mem host _ _ _ timezone hmem hid
  rw [hexisting] at hcanonical
  have hstored := (List.mem_filter.mp (canonicalRow_ok_some hexisting).1).1
  obtain rfl := KeyedTable.eq_of_key_eq hstored (List.mem_filter.mp hmem).1
    (hexistingId.trans hid.symm)
  exact hentry existing (Except.ok.inj hcanonical).symm

/-- Every row of the batch is represented. -/
theorem AcceptedBatch.exists_represents (h : AcceptedBatch host timezone rows before after aliases)
    (hrow : row ∈ rows) : ∃ stored, Represents host timezone before after row stored := by
  cases hafter : after.transactions.find row.id with
  | some own =>
      exact ⟨own, KeyedTable.mem_of_find hafter, Or.inl (KeyedTable.key_of_find hafter)⟩
  | none =>
      have hbefore := h.find_before hafter
      have hnotNew : isNew aliases before row = false := by
        cases hnew : isNew aliases before row with
        | false => rfl
        | true =>
            have hmem : row.id ∈ after.ids := by
              rw [h.ids]
              apply List.mem_append_right
              exact List.mem_map_of_mem (List.mem_filter.mpr ⟨hrow, hnew⟩)
            rw [mem_ids, hafter] at hmem
            cases hmem
      have halias : (aliases.lookup row.id).isSome := by
        cases hlookup : aliases.lookup row.id with
        | some canonical => rfl
        | none => simp [isNew, hbefore, hlookup] at hnotNew
      obtain ⟨canonical, hcanonical⟩ := Option.isSome_iff_exists.mp halias
      obtain ⟨l₁, l₂, hsplit, -⟩ := List.lookup_eq_some_iff.mp hcanonical
      have hentry : (row.id, canonical) ∈ aliases := by
        rw [hsplit]
        exact List.mem_append_right _ List.mem_cons_self
      obtain ⟨x, hx, hid, hfound⟩ := (resolveArchiveInstallments_ok h.resolved).1 _ hentry
      obtain rfl := h.eq_of_id_eq hx hrow hid
      obtain ⟨hcandidate, hcase⟩ := canonicalRow_ok_some hfound
      have hmem := (List.mem_filter.mp hcandidate).1
      rcases hcase with hown | ⟨hne, hmatches, hunique⟩
      · exact absurd hown (KeyedTable.find_eq_none.mp hbefore _ hmem)
      · have hstored : canonical.id ∈ after.ids := by
          rw [h.ids]
          exact List.mem_append_left _ (mem_ids_of_mem hmem)
        obtain ⟨stored, hstored⟩ := Option.isSome_iff_exists.mp (mem_ids.mp hstored)
        have hkey : stored.id = canonical.id := KeyedTable.key_of_find hstored
        refine ⟨stored, KeyedTable.mem_of_find hstored, Or.inr ⟨hafter, canonical, hmem,
          hkey.symm, hne, hmatches, ?_⟩⟩
        intro other hother hotherId hmatch
        exact hunique other (mem_archiveCandidates hother hmatch) hotherId hmatch

/-- A row is represented by one stored row only. -/
theorem represents_unique {a b : LedgerTransaction}
    (ha : Represents host timezone before after row a)
    (hb : Represents host timezone before after row b) : a = b := by
  obtain ⟨hmemA, hcaseA⟩ := ha
  obtain ⟨hmemB, hcaseB⟩ := hb
  apply KeyedTable.eq_of_key_eq hmemA hmemB
  rcases hcaseA with hidA | ⟨hnone, archiveA, hstoredA, hkeyA, hneA, hmatchA, huniqueA⟩
  · rcases hcaseB with hidB | ⟨hnone, -⟩
    · exact hidA.trans hidB.symm
    · exact absurd hidA (KeyedTable.find_eq_none.mp hnone a hmemA)
  · rcases hcaseB with hidB | ⟨-, archiveB, hstoredB, hkeyB, hneB, hmatchB, -⟩
    · exact absurd hidB (KeyedTable.find_eq_none.mp hnone b hmemB)
    · rw [← hkeyA, ← hkeyB, huniqueA archiveB hstoredB hneB hmatchB]

/-- A stored row that stands for one row under its own id and for another
through the archive has claimed itself twice. -/
theorem AcceptedBatch.own_and_archived (h : AcceptedBatch host timezone rows before after aliases)
    {a b : LedgerTransaction} (ha : a ∈ rows) (hb : b ∈ rows) (hown : stored.id = a.id)
    (hnone : after.transactions.find b.id = none) (hmem : archive ∈ before.transactions.rows)
    (hkey : archive.id = stored.id)
    (hmatches : matchesArchiveInstallment host archive b timezone = true)
    (hunique : ∀ other ∈ before.transactions.rows, other.id ≠ b.id →
      matchesArchiveInstallment host other b timezone = true → other = archive) : a = b := by
  have hentryA := h.alias_of_own ha (mem_archiveCandidates hmem hmatches) (hkey.trans hown)
  have hentryB := h.alias_of_match hb (h.find_before hnone) hmem hmatches hunique
  obtain ⟨-, -, honce⟩ := resolveArchiveInstallments_ok h.resolved
  exact h.eq_of_id_eq ha hb (honce _ hentryA _ hentryB rfl)

/-- No two rows of the batch are represented by one stored row. -/
theorem AcceptedBatch.represents_injective
    (h : AcceptedBatch host timezone rows before after aliases) {a b : LedgerTransaction}
    (ha : a ∈ rows) (hb : b ∈ rows) (hrepA : Represents host timezone before after a stored)
    (hrepB : Represents host timezone before after b stored) : a = b := by
  rcases hrepA.2 with hidA | ⟨hnoneA, archiveA, hmemA, hkeyA, -, hmatchA, huniqueA⟩
  · rcases hrepB.2 with hidB | ⟨hnoneB, archiveB, hmemB, hkeyB, -, hmatchB, huniqueB⟩
    · exact h.eq_of_id_eq ha hb (hidA.symm.trans hidB)
    · exact h.own_and_archived ha hb hidA hnoneB hmemB hkeyB hmatchB huniqueB
  · rcases hrepB.2 with hidB | ⟨hnoneB, archiveB, hmemB, hkeyB, -, hmatchB, huniqueB⟩
    · exact (h.own_and_archived hb ha hidB hnoneA hmemA hkeyA hmatchA huniqueA).symm
    · have hsame : archiveA = archiveB :=
        KeyedTable.eq_of_key_eq hmemA hmemB (hkeyA.trans hkeyB.symm)
      have hentryA := h.alias_of_match ha (h.find_before hnoneA) hmemA hmatchA huniqueA
      have hentryB := h.alias_of_match hb (h.find_before hnoneB) hmemB hmatchB huniqueB
      obtain ⟨-, -, honce⟩ := resolveArchiveInstallments_ok h.resolved
      exact h.eq_of_id_eq ha hb (honce _ hentryA _ hentryB (congrArg _ hsame))

end

/-- **No loss and no merging.**  With a time zone and pairwise distinct ids,
an upsert either throws and leaves the ledger exactly as it was, or counts
every row of the batch once, adds exactly the inserted rows, represents every
row by exactly one stored row and no two rows by the same one, and keeps
every stored id where it was. -/
theorem upsertTransactions_conserves (timezone : String) (rows : List LedgerTransaction)
    (session : Session) (hdistinct : (rows.map LedgerTransaction.id).Nodup) :
    match upsertTransactions host rows (some timezone) session with
    | .error _ after => after.ledger = session.ledger
    | .ok summary after =>
        summary.inserted + summary.updated + summary.unchanged = rows.length ∧
        after.ledger.transactions.rows.length =
          session.ledger.transactions.rows.length + summary.inserted ∧
        (∀ row ∈ rows, ∃! stored,
          Represents host timezone session.ledger after.ledger row stored) ∧
        (∀ a ∈ rows, ∀ b ∈ rows, ∀ stored,
          Represents host timezone session.ledger after.ledger a stored →
          Represents host timezone session.ledger after.ledger b stored → a = b) ∧
        session.ledger.ids <+: after.ledger.ids := by
  cases houtcome : upsertTransactions host rows (some timezone) session with
  | error e after => exact upsertTransactions_error host houtcome
  | ok summary after =>
      obtain ⟨aliases, ledger, hresolved, hrun, hledger⟩ := upsertTransactions_ok host houtcome
      have hprogress := @idProgress_run host aliases session.ledger rows hdistinct
      rw [hrun] at hprogress
      have hids : after.ledger.ids = session.ledger.ids ++
          (rows.filter (isNew aliases session.ledger)).map LedgerTransaction.id := by
        rw [hledger]
        exact hprogress.ids
      have haccepted : AcceptedBatch host timezone rows session.ledger after.ledger aliases :=
        ⟨hresolved, hdistinct, hids⟩
      refine ⟨hprogress.total, ?_, ?_, ?_, ?_⟩
      · have hlength := congrArg List.length hids
        simp only [Ledger.ids, List.length_append, List.length_map] at hlength
        rw [hlength, hprogress.inserted]
      · intro row hrow
        obtain ⟨stored, hstored⟩ := haccepted.exists_represents hrow
        exact ⟨stored, hstored, fun other hother => represents_unique hother hstored⟩
      · intro a ha b hb stored hrepA hrepB
        exact haccepted.represents_injective ha hb hrepA hrepB
      · rw [hids]
        exact List.prefix_append _ _

end

def archiveSession : Session :=
  ⟨{ emptyLedger with transactions := KeyedTable.empty.put archivedFridge }, []⟩

/-- The instalment is refreshed in place, next to a new purchase. -/
theorem upsertTransactions_conserves_fridge :
    let rows := [portalFridge, { portalFridge with id := "visaCal:1234:a2", identifier := none }]
    (∃ after, upsertTransactions asciiHost rows (some "Asia/Jerusalem") archiveSession =
        .ok ⟨1, 1, 0, []⟩ after ∧
      after.ledger.transactions.rows.length = 2 ∧
      ∀ row ∈ rows, ∃! stored,
        Represents asciiHost "Asia/Jerusalem" archiveSession.ledger after.ledger row stored) := by
  intro rows
  have hconserves := @upsertTransactions_conserves asciiHost "Asia/Jerusalem" rows
    archiveSession (by decide)
  have hsummary : (match upsertTransactions asciiHost rows (some "Asia/Jerusalem")
      archiveSession with | .ok summary _ => some summary | .error _ _ => none) =
      some ⟨1, 1, 0, []⟩ := by decide +kernel
  cases houtcome : upsertTransactions asciiHost rows (some "Asia/Jerusalem") archiveSession with
  | error e after =>
      rw [houtcome] at hsummary
      cases hsummary
  | ok summary after =>
      rw [houtcome] at hsummary hconserves
      obtain rfl := Option.some.inj hsummary
      exact ⟨after, rfl, hconserves.2.1, hconserves.2.2.1⟩

end SimplefinBridge
