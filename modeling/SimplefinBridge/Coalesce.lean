import Mathlib.Data.List.Lex
import SimplefinBridge.Dates
import SimplefinBridge.FreezeSemantics
import SimplefinBridge.JsonStrings

/-!
# Coalescing archived installments

An operator may merge a duplicate portal row into the archived row it stands
for.  `coalesceArchiveInstallments` takes reviewed pairs of ids with the
fingerprints both rows had at review, validates the whole list, and only then
refreshes every canonical row from its duplicate and deletes the duplicate.

The duplicate comes back with the next scrape.  It must then be recognised
again, whatever has been stored in the meantime: `SameOccurrence` keeps
everything the matching of an archived row reads, and `SettledSince` says that a
ledger has grown without a second row that could match.
-/

namespace SimplefinBridge

section
variable (host : Host)

/-! ## Row fingerprints -/

namespace Json

/-- The property keys an object enumerates first, in numeric order. -/
def isArrayIndex (key : String) : Bool :=
  key ≠ "" && key.toList.length ≤ 10 && key.toList.all Char.isDigit &&
    (key = "0" || key.toList.head? ≠ some '0') && Nat.ofDigitChars 10 key.toList 0 < 4294967295

/-- The enumeration order of an object built from entries sorted by key. -/
def enumerated {α : Type} (fields : List (String × α)) : List (String × α) :=
  let (indices, names) := fields.partition fun f => isArrayIndex f.1
  indices.insertionSort (fun a b =>
      Nat.ofDigitChars 10 a.1.toList 0 ≤ Nat.ofDigitChars 10 b.1.toList 0) ++
    names.insertionSort fun a b => jsUnits a.1 ≤ jsUnits b.1

mutual
/-- A value with the fields of its objects in order. -/
def sortedJson : Json → Json
  | .arr items => .arr (sortedItems items)
  | .obj fields => .obj (enumerated (sortedFields fields))
  | value => value

/-- The items of an array, each sorted. -/
def sortedItems : List Json → List Json
  | [] => []
  | item :: items => sortedJson item :: sortedItems items

/-- The fields of an object, each with its value sorted. -/
def sortedFields : List (String × Json) → List (String × Json)
  | [] => []
  | (key, value) :: fields => (key, sortedJson value) :: sortedFields fields
end

/-- An optional field; `JSON.stringify` leaves out what is `undefined`. -/
def optional {α : Type} (key : String) (value : Option α) : List (String × α) :=
  value.toList.map fun v => (key, v)

end Json

/-- As it is written in a row. -/
def TransactionStatus.text : TransactionStatus → String
  | .pending => "pending"
  | .posted => "posted"

/-- The fields of a row as `JSON.stringify` writes them. -/
def rowFields (row : LedgerTransaction) : List (String × List Char) :=
  let number (x : ℚ) := (host.numberToString x).toList
  let instant (t : Instant) := jsonText (toIsoString t)
  [("id", jsonText row.id), ("accountId", jsonText row.accountId),
    ("company", jsonText row.company)] ++
  Json.optional "identifier" (row.identifier.map jsonText) ++
  [("bookedDate", jsonText row.bookedDate)] ++
  Json.optional "chargeDate" (row.chargeDate.map jsonText) ++
  [("amount", number row.amount), ("currency", jsonText row.currency),
    ("description", row.description.jsonText)] ++
  Json.optional "memo" (row.memo.map JsText.jsonText) ++
  [("status", jsonText row.status.text)] ++
  Json.optional "postedSeenAt" (row.postedSeenAt.map instant) ++
  Json.optional "installmentNumber" (row.installmentNumber.map number) ++
  Json.optional "installmentTotal" (row.installmentTotal.map number) ++
  Json.optional "originalAmount" (row.originalAmount.map number) ++
  Json.optional "originalCurrency" (row.originalCurrency.map jsonText) ++
  Json.optional "category" (row.category.map JsText.jsonText) ++
  [("synthetic", (if row.synthetic then "true" else "false").toList),
    ("firstSeen", instant row.firstSeen), ("lastSeen", instant row.lastSeen),
    ("idSchemeVersion", number row.idSchemeVersion)] ++
  Json.optional "raw"
    (if row.raw = .null then none else some (row.raw.sortedJson.stringify host))

/-- Full private row fingerprint for an explicitly reviewed maintenance plan. -/
def archiveInstallmentStateHash (row : LedgerTransaction) : String :=
  let fields := (Json.enumerated (rowFields host row)).map fun f => jsonText f.1 ++ ':' :: f.2
  host.sha256 (String.ofList ('\x7b' :: ([','].intercalate fields ++ ['\x7d'])))

/-! ## Validation -/

/-- A pair of the list with the rows it names. -/
structure ReviewedPair where
  canonical : LedgerTransaction
  duplicate : LedgerTransaction

/-- One pair is looked up and compared. -/
def validatePair (rows : List LedgerTransaction) (timezone : String)
    (pair : ArchiveInstallmentPair) : Except BridgeError ReviewedPair :=
  match rows.find? (fun row => row.id = pair.canonicalId),
      rows.find? (fun row => row.id = pair.duplicateId) with
  | some canonical, some duplicate =>
      if archiveInstallmentStateHash host canonical ≠ pair.canonicalStateHash ||
          archiveInstallmentStateHash host duplicate ≠ pair.duplicateStateHash then
        .error .installmentStateChanged
      else
        match findArchiveInstallment host rows duplicate timezone with
        | .error e => .error e
        | .ok found =>
            if found.map (·.id) = some canonical.id then .ok ⟨canonical, duplicate⟩
            else .error .installmentStateChanged
  | _, _ => .error .installmentStateChanged

/-- The ids a list of pairs names. -/
def listedIds (pairs : List ArchiveInstallmentPair) : List String :=
  pairs.flatMap fun pair => [pair.canonicalId, pair.duplicateId]

/-- Validate every pair before any maintenance write. -/
def validateArchiveInstallmentPairs (pairs : List ArchiveInstallmentPair)
    (rows : List LedgerTransaction) (timezone : String) :
    Except BridgeError (List ReviewedPair) :=
  if pairs.length = 0 || pairs.length > 100 then .error .installmentPairCount
  else if ¬ (listedIds pairs).Nodup then .error .installmentPairIds
  else pairs.mapM (validatePair host rows timezone)

/-! ## The operation -/

/-- Refuse a duplicate that a synthetic payment or an anomaly refers to. -/
def refuseDependents (duplicate : LedgerTransaction) : LedgerM Unit := do
  let payment ← query fun ledger => ledger.syntheticPayments.find duplicate.id
  if payment.isSome then liftExcept (.error .installmentDependents)
  else
    let logged ← query fun ledger => ledger.anomalies.any (·.transactionId = duplicate.id)
    if logged then liftExcept (.error .installmentDependents) else pure ()

/-- `DELETE FROM transactions` -/
def deleteTransaction (id : String) : LedgerM Unit :=
  statement fun ledger => .ok { ledger with transactions := ledger.transactions.erase id }

/-- The duplicate is written into the canonical row and deleted. -/
def coalescePair (pair : ReviewedPair) : LedgerM Unit := do
  let _ ← refreshTransaction host pair.canonical pair.duplicate
  deleteTransaction pair.duplicate.id

/-- What was done. -/
structure CoalesceSummary where
  matched : Nat
  coalesced : Nat
  deriving DecidableEq, Repr

/-- The writes of a maintenance run; a dry run makes none. -/
def writePairs (validated : List ReviewedPair) (dryRun : Bool) : LedgerM Unit :=
  if dryRun then pure () else validated.foldlM (fun _ pair => coalescePair host pair) ()

/-- Explicit, hash-guarded repair only; `dryRun` validates the whole set
without changing rows. -/
def coalesceArchiveInstallments (pairs : List ArchiveInstallmentPair) (timezone : String)
    (dryRun : Bool) : LedgerM CoalesceSummary :=
  transaction do
    let rows ← query archiveCandidates
    let validated ← liftExcept (validateArchiveInstallmentPairs host pairs rows timezone)
    validated.foldlM (fun _ pair => refuseDependents pair.duplicate) ()
    writePairs host validated dryRun
    return { matched := validated.length, coalesced := if dryRun then 0 else validated.length }

end

/-! ## What validation guarantees -/

section
variable {host : Host}

/-- The row that an id finds. -/
theorem find?_id_eq_some {rows : List LedgerTransaction} {id : String} {row : LedgerTransaction}
    (h : rows.find? (fun r => r.id = id) = some row) : row ∈ rows ∧ row.id = id := by
  have hid := List.find?_some h
  exact ⟨List.mem_of_find?_eq_some h, by simpa using hid⟩

/-- A pair as validation leaves it: the duplicate matches the canonical row
and no other row under another id. -/
structure Reviewed (host : Host) (rows : List LedgerTransaction) (timezone : String)
    (pair : ArchiveInstallmentPair) (reviewed : ReviewedPair) : Prop where
  canonical : reviewed.canonical ∈ rows
  duplicate : reviewed.duplicate ∈ rows
  canonicalId : reviewed.canonical.id = pair.canonicalId
  duplicateId : reviewed.duplicate.id = pair.duplicateId
  found : ∃ row ∈ rows, row.id = reviewed.canonical.id ∧
    matchesArchiveInstallment host row reviewed.duplicate timezone = true ∧
    ∀ other ∈ rows, other.id ≠ reviewed.duplicate.id →
      matchesArchiveInstallment host other reviewed.duplicate timezone = true → other = row

/-- **A pair that passes has been reviewed.** -/
theorem validatePair_ok {rows : List LedgerTransaction} {timezone : String}
    {pair : ArchiveInstallmentPair} {reviewed : ReviewedPair}
    (h : validatePair host rows timezone pair = .ok reviewed) :
    Reviewed host rows timezone pair reviewed := by
  unfold validatePair at h
  split at h
  · rename_i canonical duplicate hcanonical hduplicate
    split_ifs at h with hhash
    split at h
    · cases h
    · rename_i found hfind
      split_ifs at h with hfound
      obtain rfl := Except.ok.inj h
      obtain ⟨row, rfl, hid⟩ := Option.map_eq_some_iff.mp hfound
      obtain ⟨hrow, -, hmatches, hunique⟩ := findArchiveInstallment_ok_some hfind
      exact
        { canonical := (find?_id_eq_some hcanonical).1
          duplicate := (find?_id_eq_some hduplicate).1
          canonicalId := (find?_id_eq_some hcanonical).2
          duplicateId := (find?_id_eq_some hduplicate).2
          found := ⟨row, hrow, hid, hmatches, hunique⟩ }
  · cases h

/-- **Validation.**  No id is listed twice, and every pair is reviewed. -/
theorem validateArchiveInstallmentPairs_ok {pairs : List ArchiveInstallmentPair}
    {rows : List LedgerTransaction} {timezone : String} {validated : List ReviewedPair}
    (h : validateArchiveInstallmentPairs host pairs rows timezone = .ok validated) :
    (listedIds pairs).Nodup ∧
      List.Forall₂ (Reviewed host rows timezone) pairs validated := by
  unfold validateArchiveInstallmentPairs at h
  split_ifs at h with hcount hids
  refine ⟨hids, ?_⟩
  have hmap := Transactional.mapM_ok_iff.mp h
  clear h hcount hids
  induction pairs generalizing validated with
  | nil =>
      cases validated with
      | nil => exact List.Forall₂.nil
      | cons v validated => cases hmap
  | cons pair pairs ih =>
      cases validated with
      | nil => cases hmap
      | cons v validated =>
          obtain ⟨hfirst, hrest⟩ := List.cons.inj hmap
          exact List.Forall₂.cons (validatePair_ok hfirst) (ih hrest)

/-- The ids of the rows of reviewed pairs. -/
def reviewedIds (validated : List ReviewedPair) : List String :=
  validated.flatMap fun v => [v.canonical.id, v.duplicate.id]

/-- The ids of the validated rows are the listed ones. -/
theorem reviewedIds_eq_listedIds {pairs : List ArchiveInstallmentPair}
    {rows : List LedgerTransaction} {timezone : String} {validated : List ReviewedPair}
    (h : List.Forall₂ (Reviewed host rows timezone) pairs validated) :
    reviewedIds validated = listedIds pairs := by
  induction h with
  | nil => rfl
  | cons hpair _ ih =>
      unfold reviewedIds listedIds at ih ⊢
      rw [List.flatMap_cons, List.flatMap_cons, ih, hpair.canonicalId, hpair.duplicateId]

/-- Every pair has its reviewed rows, and every reviewed row its pair. -/
theorem exists_reviewed {pairs : List ArchiveInstallmentPair} {rows : List LedgerTransaction}
    {timezone : String} {validated : List ReviewedPair}
    (h : List.Forall₂ (Reviewed host rows timezone) pairs validated) :
    (∀ pair ∈ pairs, ∃ v ∈ validated, Reviewed host rows timezone pair v) ∧
      ∀ v ∈ validated, ∃ pair ∈ pairs, Reviewed host rows timezone pair v := by
  induction h with
  | nil => simp
  | @cons pair v pairs validated hpair _ ih =>
      obtain ⟨ihpairs, ihvalidated⟩ := ih
      constructor
      · intro p hp
        rcases List.mem_cons.mp hp with rfl | hp
        · exact ⟨v, List.mem_cons_self, hpair⟩
        · obtain ⟨w, hw, hreviewed⟩ := ihpairs p hp
          exact ⟨w, List.mem_cons_of_mem _ hw, hreviewed⟩
      · intro w hw
        rcases List.mem_cons.mp hw with rfl | hw
        · exact ⟨pair, List.mem_cons_self, hpair⟩
        · obtain ⟨p, hp, hreviewed⟩ := ihvalidated w hw
          exact ⟨p, List.mem_cons_of_mem _ hp, hreviewed⟩

/-- A validated pair: the duplicate matches its canonical row and no other. -/
theorem Reviewed.matches_unique {ledger : Ledger} {timezone : String}
    {pair : ArchiveInstallmentPair} {v : ReviewedPair}
    (h : Reviewed host (archiveCandidates ledger) timezone pair v) :
    v.canonical ∈ ledger.transactions.rows ∧ v.duplicate ∈ ledger.transactions.rows ∧
      matchesArchiveInstallment host v.canonical v.duplicate timezone = true ∧
      ∀ other ∈ ledger.transactions.rows, other.id ≠ v.duplicate.id →
        matchesArchiveInstallment host other v.duplicate timezone = true →
        other = v.canonical := by
  have hcanonical := (List.mem_filter.mp h.canonical).1
  obtain ⟨row, hrow, hid, hmatches, hunique⟩ := h.found
  obtain rfl := KeyedTable.eq_of_key_eq (List.mem_filter.mp hrow).1 hcanonical hid
  refine ⟨hcanonical, (List.mem_filter.mp h.duplicate).1, hmatches, ?_⟩
  intro other hother hne hmatch
  have hcompany := (company_of_matches hmatch).1
  exact hunique other (List.mem_filter.mpr ⟨hother, by simpa using hcompany⟩) hne hmatch

/-! ## The operation as a function -/

/-- What one pair does to the ledger. -/
def coalesceStep (host : Host) (ledger : Ledger) (pair : ReviewedPair) : Ledger :=
  let refreshed := ledger.refresh host pair.canonical pair.duplicate
  { refreshed with transactions := refreshed.transactions.erase pair.duplicate.id }

/-- One pair is a step of `coalesceStep`. -/
theorem coalescePair_ok {pair : ReviewedPair} {s s' : Session} {u : Unit}
    (h : coalescePair host pair s = .ok u s') :
    s'.ledger = coalesceStep host s.ledger pair := by
  unfold coalescePair at h
  obtain ⟨changed, s₁, hrefresh, hdelete⟩ := Transactional.bind_ok.mp h
  obtain ⟨-, hledger⟩ := refreshTransaction_ok host hrefresh
  have hfinal := @statement_ok (fun ledger => .ok { ledger with
    transactions := ledger.transactions.erase pair.duplicate.id }) _ _ _ hdelete
  rw [← Except.ok.inj hfinal, hledger]
  rfl

/-- Looking for dependents writes nothing. -/
theorem refuseDependents_ok {duplicate : LedgerTransaction} {s s' : Session} {u : Unit}
    (h : refuseDependents duplicate s = .ok u s') : s'.ledger = s.ledger := by
  unfold refuseDependents at h
  obtain ⟨payment, s₁, hquery, h⟩ := Transactional.bind_ok.mp h
  obtain ⟨-, hs₁⟩ := query_ok hquery
  split_ifs at h
  · cases (liftExcept_ok h).1
  · obtain ⟨logged, s₂, hquery', h⟩ := Transactional.bind_ok.mp h
    obtain ⟨-, hs₂⟩ := query_ok hquery'
    split_ifs at h
    · cases (liftExcept_ok h).1
    · obtain ⟨-, rfl⟩ := Transactional.pure_ok.mp h
      rw [hs₂, hs₁]

/-- **The operation as a function.**  A successful call validates against the
rows it read; a dry run changes nothing, any other folds `coalesceStep` over
the validated pairs. -/
theorem coalesceArchiveInstallments_ok {pairs : List ArchiveInstallmentPair} {timezone : String}
    {dryRun : Bool} {s s' : Session} {summary : CoalesceSummary}
    (h : coalesceArchiveInstallments host pairs timezone dryRun s = .ok summary s') :
    ∃ validated,
      validateArchiveInstallmentPairs host pairs (archiveCandidates s.ledger) timezone =
        .ok validated ∧
      summary = ⟨validated.length, if dryRun then 0 else validated.length⟩ ∧
      s'.ledger = if dryRun then s.ledger
        else Runs.run (coalesceStep host) s.ledger validated := by
  unfold coalesceArchiveInstallments at h
  obtain ⟨rows, s₁, hquery, hvalidate⟩ :=
    Transactional.bind_ok.mp (Transactional.transaction_ok.mp h)
  obtain ⟨rfl, hs₁⟩ := query_ok hquery
  obtain ⟨validated, s₂, hlift, hrefuse⟩ := Transactional.bind_ok.mp hvalidate
  obtain ⟨hvalidated, rfl⟩ := liftExcept_ok hlift
  obtain ⟨u, s₃, hdependents, hwrite⟩ := Transactional.bind_ok.mp hrefuse
  have hs₃ : s₃.ledger = s₂.ledger :=
    Transactional.foldlM_ok (fun _ _ s => s.ledger = s₂.ledger)
      (fun _ _ _ _ _ _ hkept hrun => (refuseDependents_ok hrun).trans hkept) rfl hdependents
  obtain ⟨u', s₄, hwrites, hreturn⟩ := Transactional.bind_ok.mp hwrite
  obtain ⟨rfl, rfl⟩ := Transactional.pure_ok.mp hreturn
  refine ⟨validated, hvalidated, rfl, ?_⟩
  rw [← hs₁, ← hs₃]
  unfold writePairs at hwrites
  cases dryRun with
  | true =>
      obtain ⟨-, rfl⟩ := Transactional.pure_ok.mp hwrites
      rfl
  | false =>
      exact Transactional.foldlM_view (fun _ s => s.ledger) (coalesceStep host)
        (fun _ _ _ _ _ hrun => coalescePair_ok hrun) hwrites

/-- A synthetic payment or an anomaly refers to the duplicate. -/
def Ledger.hasDependents (ledger : Ledger) (duplicate : LedgerTransaction) : Bool :=
  (ledger.syntheticPayments.find duplicate.id).isSome ||
    ledger.anomalies.any fun anomaly => anomaly.transactionId = duplicate.id

/-- A duplicate with dependents is refused. -/
theorem refuseDependents_accepted (ledger : Ledger) (duplicate : LedgerTransaction) :
    refuseDependents duplicate ⟨ledger, []⟩ =
      if ledger.hasDependents duplicate then .error .installmentDependents ⟨ledger, []⟩
      else .ok () ⟨ledger, []⟩ := by
  unfold refuseDependents Ledger.hasDependents
  rw [Transactional.bind_of_ok (query_accepted _ ledger)]
  cases (ledger.syntheticPayments.find duplicate.id).isSome with
  | true => rfl
  | false =>
      simp only [Bool.false_eq_true, if_false, Bool.false_or]
      rw [Transactional.bind_of_ok (query_accepted _ ledger)]
      split_ifs <;> rfl

/-- So are all pairs, if one of them is. -/
theorem refuseLoop_accepted (ledger : Ledger) (validated : List ReviewedPair) :
    validated.foldlM (fun _ pair => refuseDependents pair.duplicate) () ⟨ledger, []⟩ =
      if validated.any fun pair => ledger.hasDependents pair.duplicate then
        .error .installmentDependents ⟨ledger, []⟩
      else .ok () ⟨ledger, []⟩ := by
  induction validated with
  | nil => rfl
  | cons pair validated ih =>
      have hfirst := refuseDependents_accepted ledger pair.duplicate
      rw [List.foldlM_cons, List.any_cons]
      cases hdependents : ledger.hasDependents pair.duplicate with
      | true =>
          rw [hdependents] at hfirst
          exact Transactional.bind_of_error hfirst
      | false =>
          rw [hdependents] at hfirst
          rw [Transactional.bind_of_ok hfirst, Bool.false_or]
          exact ih

/-- The pairs are written one after another. -/
theorem writeLoop_accepted (ledger : Ledger) (validated : List ReviewedPair) :
    validated.foldlM (fun _ pair => coalescePair host pair) () ⟨ledger, []⟩ =
      .ok () ⟨Runs.run (coalesceStep host) ledger validated, []⟩ := by
  induction validated generalizing ledger with
  | nil => rfl
  | cons pair validated ih =>
      have hfirst : coalescePair host pair ⟨ledger, []⟩ =
          .ok () ⟨coalesceStep host ledger pair, []⟩ := rfl
      rw [List.foldlM_cons, Transactional.bind_of_ok hfirst]
      exact ih _

/-- A dry run writes none of them. -/
theorem writePairs_accepted (ledger : Ledger) (validated : List ReviewedPair) (dryRun : Bool) :
    writePairs host validated dryRun ⟨ledger, []⟩ =
      .ok () ⟨if dryRun then ledger else Runs.run (coalesceStep host) ledger validated, []⟩ := by
  cases dryRun with
  | true => rfl
  | false => exact writeLoop_accepted ledger validated

/-- When the database accepts every statement, only the validation and the
dependents decide. -/
theorem coalesceArchiveInstallments_accepted (pairs : List ArchiveInstallmentPair)
    (timezone : String) (dryRun : Bool) (ledger : Ledger) :
    coalesceArchiveInstallments host pairs timezone dryRun ⟨ledger, []⟩ =
      match validateArchiveInstallmentPairs host pairs (archiveCandidates ledger) timezone with
      | .error e => .error e ⟨ledger, []⟩
      | .ok validated =>
          if validated.any fun pair => ledger.hasDependents pair.duplicate then
            .error .installmentDependents ⟨ledger, []⟩
          else
            .ok ⟨validated.length, if dryRun then 0 else validated.length⟩
              ⟨if dryRun then ledger else Runs.run (coalesceStep host) ledger validated, []⟩ := by
  unfold coalesceArchiveInstallments transaction Transactional.transaction
  rw [Transactional.bind_of_ok (query_accepted _ ledger)]
  cases validateArchiveInstallmentPairs host pairs (archiveCandidates ledger) timezone with
  | error e => rfl
  | ok validated =>
      have hloop := refuseLoop_accepted ledger validated
      rw [Transactional.bind_of_ok (liftExcept_accepted validated ⟨ledger, []⟩)]
      dsimp only
      by_cases hdependents :
          (validated.any fun pair => ledger.hasDependents pair.duplicate) = true
      · rw [if_pos hdependents] at hloop ⊢
        rw [Transactional.bind_of_error hloop]
      · rw [if_neg hdependents] at hloop ⊢
        rw [Transactional.bind_of_ok hloop,
          Transactional.bind_of_ok (writePairs_accepted ledger validated dryRun)]
        rfl

/-- A refused call has written nothing. -/
theorem coalesceArchiveInstallments_error {pairs : List ArchiveInstallmentPair}
    {timezone : String} {dryRun : Bool} {s s' : Session} {e : BridgeError}
    (h : coalesceArchiveInstallments host pairs timezone dryRun s = .error e s') :
    s'.ledger = s.ledger :=
  transaction_error h

/-- The ids of the reviewed pairs. -/
theorem mem_reviewedIds {validated : List ReviewedPair} {id : String} :
    id ∈ reviewedIds validated ↔
      ∃ v ∈ validated, id = v.canonical.id ∨ id = v.duplicate.id := by
  unfold reviewedIds
  rw [List.mem_flatMap]
  simp

/-- One more pair has two more ids. -/
theorem reviewedIds_concat (done : List ReviewedPair) (pair : ReviewedPair) :
    reviewedIds (done ++ [pair]) =
      reviewedIds done ++ [pair.canonical.id, pair.duplicate.id] := by
  unfold reviewedIds
  rw [List.flatMap_append, List.flatMap_singleton]

/-- What holds after the pairs `done` of a maintenance run that began on
`start`. -/
structure CoalesceProgress (host : Host) (start : Ledger) (done : List ReviewedPair)
    (ledger : Ledger) : Prop where
  removed : ∀ v ∈ done, ledger.transactions.find v.duplicate.id = none
  refreshed : ∀ v ∈ done, ledger.transactions.find v.canonical.id =
    some (refreshedRow host v.canonical v.canonical v.duplicate)
  unlisted : ∀ id, id ∉ reviewedIds done → ledger.transactions.find id = start.transactions.find id
  frame : ledger = { start with transactions := ledger.transactions }

/-- What is found after one pair. -/
theorem find_coalesceStep {ledger : Ledger} {pair : ReviewedPair}
    (hcanonical : ledger.transactions.find pair.canonical.id = some pair.canonical) (id : String) :
    (coalesceStep host ledger pair).transactions.find id =
      if id = pair.duplicate.id then none
      else if id = pair.canonical.id then
        some (refreshedRow host pair.canonical pair.canonical pair.duplicate)
      else ledger.transactions.find id := by
  unfold coalesceStep Ledger.refresh
  rw [hcanonical]
  dsimp only
  rw [KeyedTable.find_erase, KeyedTable.find_put]
  rfl

/-- A pair touches the transactions only. -/
theorem frame_coalesceStep (ledger : Ledger) (pair : ReviewedPair) :
    coalesceStep host ledger pair =
      { ledger with transactions := (coalesceStep host ledger pair).transactions } := by
  unfold coalesceStep Ledger.refresh
  cases ledger.transactions.find pair.canonical.id with
  | none => rfl
  | some stored => rfl

/-- The canonical row of a pair is untouched before its turn. -/
theorem CoalesceProgress.stored {start ledger : Ledger} {done : List ReviewedPair}
    {pair : ReviewedPair} (h : CoalesceProgress host start done ledger)
    (hids : (reviewedIds (done ++ [pair])).Nodup)
    (hcanonical : start.transactions.find pair.canonical.id = some pair.canonical) :
    ledger.transactions.find pair.canonical.id = some pair.canonical := by
  rw [reviewedIds_concat, List.nodup_append] at hids
  have huntouched : pair.canonical.id ∉ reviewedIds done := by
    intro hmem
    exact hids.2.2 _ hmem pair.canonical.id (by simp) rfl
  rw [h.unlisted _ huntouched, hcanonical]

/-- **One pair.** -/
theorem CoalesceProgress.step {start ledger : Ledger} {done : List ReviewedPair}
    {pair : ReviewedPair} (h : CoalesceProgress host start done ledger)
    (hids : (reviewedIds (done ++ [pair])).Nodup)
    (hcanonical : start.transactions.find pair.canonical.id = some pair.canonical) :
    CoalesceProgress host start (done ++ [pair]) (coalesceStep host ledger pair) := by
  have hfind := @find_coalesceStep host ledger pair (h.stored hids hcanonical)
  have hsplit := reviewedIds_concat done pair
  rw [hsplit, List.nodup_append] at hids
  obtain ⟨-, hpair, hapart⟩ := hids
  have hne : pair.canonical.id ≠ pair.duplicate.id := by simpa using hpair
  have hfresh : ∀ v ∈ done, (v.canonical.id ≠ pair.canonical.id ∧
      v.canonical.id ≠ pair.duplicate.id) ∧ v.duplicate.id ≠ pair.canonical.id ∧
      v.duplicate.id ≠ pair.duplicate.id := by
    intro v hv
    have hc : v.canonical.id ∈ reviewedIds done := mem_reviewedIds.mpr ⟨v, hv, Or.inl rfl⟩
    have hd : v.duplicate.id ∈ reviewedIds done := mem_reviewedIds.mpr ⟨v, hv, Or.inr rfl⟩
    exact ⟨⟨hapart _ hc _ (by simp), hapart _ hc _ (by simp)⟩,
      hapart _ hd _ (by simp), hapart _ hd _ (by simp)⟩
  refine ⟨?_, ?_, ?_, ?_⟩
  · intro v hv
    rw [hfind]
    rcases List.mem_append.mp hv with hv | hv
    · obtain ⟨-, hcanonical', hduplicate'⟩ := hfresh v hv
      rw [if_neg hduplicate', if_neg hcanonical']
      exact h.removed v hv
    · obtain rfl := List.mem_singleton.mp hv
      rw [if_pos rfl]
  · intro v hv
    rw [hfind]
    rcases List.mem_append.mp hv with hv | hv
    · obtain ⟨⟨hcanonical', hduplicate'⟩, -⟩ := hfresh v hv
      rw [if_neg hduplicate', if_neg hcanonical']
      exact h.refreshed v hv
    · obtain rfl := List.mem_singleton.mp hv
      rw [if_neg hne, if_pos rfl]
  · intro id hid
    rw [hsplit, List.mem_append] at hid
    have hdone : id ∉ reviewedIds done := fun hmem => hid (Or.inl hmem)
    have hc : id ≠ pair.canonical.id := fun heq => hid (Or.inr (by simp [heq]))
    have hd : id ≠ pair.duplicate.id := fun heq => hid (Or.inr (by simp [heq]))
    rw [hfind, if_neg hd, if_neg hc]
    exact h.unlisted id hdone
  · rw [frame_coalesceStep, h.frame]

/-- A pair of a validated list at its turn: the ids so far are distinct, and
its canonical row was stored at the start. -/
theorem reviewed_turn {ledger : Ledger} {pairs : List ArchiveInstallmentPair}
    {timezone : String} {validated done : List ReviewedPair} {pair : ReviewedPair}
    (h : validateArchiveInstallmentPairs host pairs (archiveCandidates ledger) timezone =
      .ok validated) (hinitial : done ++ [pair] <+: validated) :
    (reviewedIds (done ++ [pair])).Nodup ∧
      ledger.transactions.find pair.canonical.id = some pair.canonical ∧
      matchesArchiveInstallment host pair.canonical pair.duplicate timezone = true := by
  obtain ⟨hids, hreviewed⟩ := validateArchiveInstallmentPairs_ok h
  rw [← reviewedIds_eq_listedIds hreviewed] at hids
  have hmem : pair ∈ validated := hinitial.subset (List.mem_append_right _ List.mem_cons_self)
  obtain ⟨p, -, hpair⟩ := (exists_reviewed hreviewed).2 pair hmem
  obtain ⟨hcanonical, -, hmatches, -⟩ := hpair.matches_unique
  refine ⟨?_, KeyedTable.find_of_mem hcanonical, hmatches⟩
  obtain ⟨rest, hrest⟩ := hinitial
  rw [← hrest] at hids
  unfold reviewedIds at hids ⊢
  rw [List.flatMap_append] at hids
  exact hids.of_append_left

/-- The two rows of a validated pair are stored. -/
theorem reviewed_stored {ledger : Ledger} {pairs : List ArchiveInstallmentPair}
    {timezone : String} {validated done : List ReviewedPair} {pair : ReviewedPair}
    (h : validateArchiveInstallmentPairs host pairs (archiveCandidates ledger) timezone =
      .ok validated) (hinitial : done ++ [pair] <+: validated) :
    pair.canonical ∈ ledger.transactions.rows ∧ pair.duplicate ∈ ledger.transactions.rows := by
  have hmem : pair ∈ validated := hinitial.subset (List.mem_append_right _ List.mem_cons_self)
  have hreviewed := (validateArchiveInstallmentPairs_ok h).2
  obtain ⟨p, -, hpair⟩ := (exists_reviewed hreviewed).2 pair hmem
  obtain ⟨hcanonical, hduplicate, -⟩ := hpair.matches_unique
  exact ⟨hcanonical, hduplicate⟩

/-- Nothing has been done yet. -/
theorem CoalesceProgress.start (ledger : Ledger) : CoalesceProgress host ledger [] ledger :=
  ⟨fun _ hv => absurd hv List.not_mem_nil, fun _ hv => absurd hv List.not_mem_nil,
    fun _ _ => rfl, rfl⟩

/-- **A maintenance run.**  Every duplicate is gone, every canonical row is
the one that was read, refreshed from its duplicate, and nothing else moved. -/
theorem coalesceProgress_run {ledger : Ledger} {pairs : List ArchiveInstallmentPair}
    {timezone : String} {validated : List ReviewedPair}
    (h : validateArchiveInstallmentPairs host pairs (archiveCandidates ledger) timezone =
      .ok validated) :
    CoalesceProgress host ledger validated
      (Runs.run (coalesceStep host) ledger validated) := by
  refine Runs.run_history (I := CoalesceProgress host ledger) (CoalesceProgress.start ledger) ?_
  intro done pair after hinitial hdone
  obtain ⟨hids, hcanonical, -⟩ := reviewed_turn h hinitial
  exact hdone.step hids hcanonical

/-- A call that returns has done all pairs. -/
theorem coalesceProgress_of_ok {ledger : Ledger} {faults : List Bool}
    {pairs : List ArchiveInstallmentPair} {timezone : String} {dryRun : Bool} {s : Session}
    {summary : CoalesceSummary} (hwrite : dryRun = false)
    (h : coalesceArchiveInstallments host pairs timezone dryRun ⟨ledger, faults⟩ = .ok summary s) :
    ∃ validated,
      List.Forall₂ (Reviewed host (archiveCandidates ledger) timezone) pairs validated ∧
        CoalesceProgress host ledger validated s.ledger := by
  obtain ⟨validated, hvalidated, -, hledger⟩ := coalesceArchiveInstallments_ok h
  have hrun := coalesceProgress_run hvalidated
  refine ⟨validated, (validateArchiveInstallmentPairs_ok hvalidated).2, ?_⟩
  rw [hledger, hwrite]
  exact hrun

/-! ## What the matching reads -/

/-- Everything the matching of an archived row reads is unchanged. -/
structure SameOccurrence (host : Host) (old new : LedgerTransaction) : Prop where
  frozen : new.frozen = old.frozen
  synthetic : new.synthetic = old.synthetic
  wrapper : archiveWrapper host new.raw = archiveWrapper host old.raw
  posted : old.status = .posted → new.status = .posted

/-- A row is its own occurrence. -/
theorem SameOccurrence.refl (row : LedgerTransaction) : SameOccurrence host row row :=
  ⟨rfl, rfl, rfl, id⟩

/-- Occurrences carry over. -/
theorem SameOccurrence.trans {a b c : LedgerTransaction} (hab : SameOccurrence host a b)
    (hbc : SameOccurrence host b c) : SameOccurrence host a c where
  frozen := hbc.frozen.trans hab.frozen
  synthetic := hbc.synthetic.trans hab.synthetic
  wrapper := hbc.wrapper.trans hab.wrapper
  posted := hbc.posted ∘ hab.posted

/-- An occurrence keeps the id. -/
theorem SameOccurrence.id_eq {old new : LedgerTransaction} (h : SameOccurrence host old new) :
    new.id = old.id :=
  congrArg FrozenFields.id h.frozen

/-- A field with a text that passes its check. -/
theorem textField_eq_some {value : Json} {key text : String} {check : String → Bool}
    (h : textField value key check = some text) :
    value.object.isSome ∧ Json.asString (value.field key) = some text ∧ check text = true := by
  unfold textField at h
  obtain ⟨htext, hcheck⟩ := Option.filter_eq_some_iff.mp h
  refine ⟨?_, htext, hcheck⟩
  cases hobject : value.object with
  | some fields => rfl
  | none =>
      unfold Json.field at htext
      rw [hobject] at htext
      cases htext

/-- Full evidence is in particular a valid wrapper. -/
theorem isArchiveWrapper_of_parse {wrapper : Json} {evidence : ArchiveEvidence}
    (h : parseArchive host wrapper = some evidence) : isArchiveWrapper host wrapper = true := by
  unfold parseArchive at h
  obtain ⟨origin, horigin, hrest⟩ := Option.bind_eq_some_iff.mp h
  obtain ⟨originRowId, hrow, -⟩ := Option.bind_eq_some_iff.mp hrest
  obtain ⟨hobject, horigin, hkind⟩ := textField_eq_some horigin
  obtain ⟨-, hrow, huuid⟩ := textField_eq_some hrow
  unfold isArchiveWrapper
  rw [hobject, horigin, hrow]
  simpa using ⟨by simpa using hkind, huuid⟩

/-- A row without a valid wrapper is no archived row. -/
theorem archiveWrapper_of_matches {archive incoming : LedgerTransaction} {timezone : String}
    (h : matchesArchiveInstallment host archive incoming timezone = true) :
    ∃ wrapper, archive.raw.field "archiveMigration" = some wrapper ∧
      archiveWrapper host archive.raw = some wrapper := by
  unfold matchesArchiveInstallment at h
  have hparse := (Bool.and_eq_true_iff.mp h).2
  cases hevidence : (archive.raw.field "archiveMigration").bind (parseArchive host) with
  | none =>
      rw [hevidence] at hparse
      cases hparse
  | some evidence =>
      obtain ⟨wrapper, hwrapper, hevidence⟩ := Option.bind_eq_some_iff.mp hevidence
      refine ⟨wrapper, hwrapper, ?_⟩
      unfold archiveWrapper
      rw [hwrapper]
      exact Option.filter_eq_some_iff.mpr ⟨rfl, isArchiveWrapper_of_parse hevidence⟩

/-- An archived row has a valid wrapper. -/
theorem archiveWrapper_isSome_of_matches {archive incoming : LedgerTransaction} {timezone : String}
    (h : matchesArchiveInstallment host archive incoming timezone = true) :
    (archiveWrapper host archive.raw).isSome := by
  obtain ⟨wrapper, -, hwrapper⟩ := archiveWrapper_of_matches h
  rw [hwrapper]
  rfl

/-- An archived row is posted. -/
theorem posted_of_matches {archive incoming : LedgerTransaction} {timezone : String}
    (h : matchesArchiveInstallment host archive incoming timezone = true) :
    archive.status = .posted ∧ archive.description = incoming.description ∧
      archive.amount = incoming.amount := by
  unfold matchesArchiveInstallment at h
  have hsame := (Bool.and_eq_true_iff.mp h).1
  simp only [sameInstallment, Bool.and_eq_true, decide_eq_true_eq] at hsame
  obtain ⟨⟨⟨⟨⟨⟨⟨⟨⟨⟨⟨⟨⟨⟨⟨⟨⟨⟨-, -⟩, -⟩, -⟩, hposted⟩, -⟩, -⟩, -⟩, -⟩, hamount⟩, -⟩, hdescription⟩,
    -⟩, -⟩, -⟩, -⟩, -⟩, -⟩, -⟩ := hsame
  exact ⟨hposted, hdescription, hamount⟩

/-- The matching does not see what `SameOccurrence` leaves open. -/
theorem SameOccurrence.matches {old new incoming : LedgerTransaction} {timezone : String}
    (h : SameOccurrence host old new)
    (hmatches : matchesArchiveInstallment host old incoming timezone = true) :
    matchesArchiveInstallment host new incoming timezone = true := by
  obtain ⟨wrapper, hold, hwrapper⟩ := archiveWrapper_of_matches hmatches
  have hposted := (posted_of_matches hmatches).1
  have hfield : new.raw.field "archiveMigration" = old.raw.field "archiveMigration" := by
    have hnew := h.wrapper.trans hwrapper
    rw [hold]
    exact (Option.filter_eq_some_iff.mp hnew).1
  have hstatus : new.status = old.status := by rw [h.posted hposted, hposted]
  have hfrozen := h.frozen
  simp only [LedgerTransaction.frozen, FrozenFields.mk.injEq] at hfrozen
  obtain ⟨-, haccount, hcompany, hamount, hcurrency, -, hdescription, hidentifier, hnumber,
    htotal, horiginal, hforeign, -⟩ := hfrozen
  unfold matchesArchiveInstallment sameInstallment evidenceOfArchive at hmatches ⊢
  rw [hfield, hstatus, haccount, hcompany, hamount, hcurrency, hdescription, hidentifier,
    hnumber, htotal, horiginal, hforeign, h.synthetic]
  exact hmatches

/-- A refresh keeps the occurrence, unless the incoming row brings evidence
to a row that had none. -/
theorem sameOccurrence_refreshedRow {stored existing incoming : LedgerTransaction}
    (hfrozen : stored.frozen = existing.frozen) (hsynthetic : stored.synthetic = existing.synthetic)
    (hincoming : (archiveWrapper host existing.raw).isSome ∨
      archiveWrapper host incoming.raw = none) :
    SameOccurrence host existing (refreshedRow host stored existing incoming) where
  frozen := hfrozen
  synthetic := hsynthetic
  wrapper := by
    change archiveWrapper host (preserveArchiveRaw host existing incoming) = _
    cases hexisting : archiveWrapper host existing.raw with
    | some archive => exact archiveWrapper_preserveArchiveRaw host hexisting
    | none =>
        rw [hexisting] at hincoming
        unfold preserveArchiveRaw
        rw [hexisting]
        simpa using hincoming
  posted := by
    intro hposted
    change refreshedStatus existing incoming = .posted
    unfold refreshedStatus
    simp [hposted]

/-! ## Later upserts -/

/-- `new` has grown out of `old` without a further archived row and without a
row under the id `removed`. -/
structure SettledSince (host : Host) (removed : String) (old new : Ledger) : Prop where
  kept : ∀ row ∈ old.transactions.rows,
    ∃ row', new.transactions.find row.id = some row' ∧ SameOccurrence host row row'
  added : ∀ row ∈ new.transactions.rows, old.transactions.find row.id = none →
    archiveWrapper host row.raw = none ∧ row.id ≠ removed

/-- Nothing has changed. -/
theorem SettledSince.refl (removed : String) (ledger : Ledger) : SettledSince host removed ledger ledger where
  kept := fun row hrow => ⟨row, KeyedTable.find_of_mem hrow, SameOccurrence.refl row⟩
  added := by
    intro row hrow hnone
    rw [KeyedTable.find_of_mem hrow] at hnone
    cases hnone

/-- What settles stays settled. -/
theorem SettledSince.trans {removed : String} {a b c : Ledger} (hab : SettledSince host removed a b)
    (hbc : SettledSince host removed b c) : SettledSince host removed a c where
  kept := by
    intro row hrow
    obtain ⟨row', hfind, hsame⟩ := hab.kept row hrow
    obtain ⟨row'', hfind', hsame'⟩ := hbc.kept row' (KeyedTable.mem_of_find hfind)
    rw [hsame.id_eq] at hfind'
    exact ⟨row'', hfind', hsame.trans hsame'⟩
  added := by
    intro row hrow hnone
    cases hmid : b.transactions.find row.id with
    | none => exact hbc.added row hrow hmid
    | some row' =>
        have hid := KeyedTable.key_of_find hmid
        have hmem := KeyedTable.mem_of_find hmid
        rw [← hid] at hnone
        obtain ⟨hwrapper, hne⟩ := hab.added row' hmem hnone
        obtain ⟨row'', hfind, hsame⟩ := hbc.kept row' hmem
        rw [hid, KeyedTable.find_of_mem hrow] at hfind
        obtain rfl := Option.some.inj hfind
        exact ⟨hsame.wrapper.trans hwrapper, hid ▸ hne⟩

/-- A stored row of the later ledger that has an archive wrapper was stored in
the earlier one, as the same occurrence. -/
theorem SettledSince.origin {removed : String} {old new : Ledger} (h : SettledSince host removed old new)
    {row : LedgerTransaction} (hrow : row ∈ new.transactions.rows)
    (hwrapper : (archiveWrapper host row.raw).isSome) :
    ∃ row₀ ∈ old.transactions.rows, SameOccurrence host row₀ row := by
  cases hold : old.transactions.find row.id with
  | none =>
      rw [(h.added row hrow hold).1] at hwrapper
      cases hwrapper
  | some row₀ =>
      have hmem := KeyedTable.mem_of_find hold
      obtain ⟨row', hfind, hsame⟩ := h.kept row₀ hmem
      rw [KeyedTable.key_of_find hold, KeyedTable.find_of_mem hrow] at hfind
      obtain rfl := Option.some.inj hfind
      exact ⟨row₀, hmem, hsame⟩

/-- Writing over a stored row keeps a ledger settled when what is written is
the occurrence that was stored at the start. -/
theorem SettledSince.put {removed : String} {start ledger : Ledger} {new : LedgerTransaction}
    (h : SettledSince host removed start ledger)
    (hold : ∀ row ∈ start.transactions.rows, row.id = new.id → SameOccurrence host row new)
    (hnew : start.transactions.find new.id = none →
      archiveWrapper host new.raw = none ∧ new.id ≠ removed) :
    SettledSince host removed start { ledger with transactions := ledger.transactions.put new } where
  kept := by
    intro row hrow
    by_cases hid : row.id = new.id
    · exact ⟨new, by rw [hid]; exact KeyedTable.find_put_self _ _, hold row hrow hid⟩
    · obtain ⟨row', hfind, hsame⟩ := h.kept row hrow
      exact ⟨row', by rw [KeyedTable.find_put_other _ hid, hfind], hsame⟩
  added := by
    intro row hrow hnone
    rcases KeyedTable.mem_put.mp hrow with rfl | ⟨hrow, -⟩
    · exact hnew hnone
    · exact h.added row hrow hnone

/-- **One row.**  An iteration of the upsert loop over rows without evidence
keeps the ledger settled. -/
theorem settledSince_upsertStep {removed : String} {aliases : List (String × LedgerTransaction)}
    {start : Ledger} {state : UpsertSummary × Ledger} {row : LedgerTransaction}
    (h : SettledSince host removed start state.2)
    (haliases : ∀ id canonical, aliases.lookup id = some canonical →
      canonical ∈ start.transactions.rows)
    (hwrapper : archiveWrapper host row.raw = none) (hne : row.id ≠ removed) :
    SettledSince host removed start (upsertStep host aliases state row).2 := by
  obtain ⟨summary, ledger⟩ := state
  unfold upsertStep
  dsimp only
  cases hown : ledger.transactions.find row.id with
  | none =>
      cases halias : aliases.lookup row.id with
      | none =>
          apply h.put
          · intro row₀ hrow₀ hid
            obtain ⟨row', hfind, -⟩ := h.kept row₀ hrow₀
            rw [hid, LedgerTransaction.stored_id, hown] at hfind
            cases hfind
          · exact fun _ => ⟨hwrapper, hne⟩
      | some existing =>
          -- the alias was read when the batch began
          have hmem := haliases _ _ halias
          obtain ⟨stored, hfind, hsame⟩ := h.kept existing hmem
          have hnew := @sameOccurrence_refreshedRow host stored existing row hsame.frozen hsame.synthetic
            (Or.inr hwrapper)
          simp only [Option.none_or, Ledger.refresh, hfind]
          apply h.put
          · intro row₀ hrow₀ hid
            obtain rfl := KeyedTable.eq_of_key_eq hrow₀ hmem (hid.trans hnew.id_eq)
            exact hnew
          · intro hnone
            rw [hnew.id_eq, KeyedTable.find_of_mem hmem] at hnone
            cases hnone
  | some stored =>
      have hid : stored.id = row.id := KeyedTable.key_of_find hown
      have hnew := @sameOccurrence_refreshedRow host stored stored row rfl rfl
        (Or.inr hwrapper : _ ∨ archiveWrapper host row.raw = none)
      simp only [Option.some_or, Ledger.refresh, hid, hown]
      apply h.put
      · intro row₀ hrow₀ hid₀
        obtain ⟨row', hfind, hsame⟩ := h.kept row₀ hrow₀
        rw [hid₀, hnew.id_eq, hid, hown] at hfind
        obtain rfl := Option.some.inj hfind
        exact hsame.trans hnew
      · intro hnone
        have hmem : stored ∈ ledger.transactions.rows := KeyedTable.mem_of_find hown
        rw [hnew.id_eq] at hnone ⊢
        obtain ⟨hnowrapper, hne'⟩ := h.added stored hmem hnone
        exact ⟨hnew.wrapper.trans hnowrapper, hne'⟩

/-- **One call.**  So does every upsert of such rows, refused or not. -/
theorem settledSince_upsertBatch {removed : String} {ledger : Ledger} {batch : UpsertBatch}
    (hrows : ∀ row ∈ batch.rows, archiveWrapper host row.raw = none ∧ row.id ≠ removed) :
    SettledSince host removed ledger (upsertBatch host ledger batch) := by
  unfold upsertBatch
  cases houtcome : upsertOutcome host ledger batch with
  | error e s' =>
      have hsame : s'.ledger = ledger := upsertTransactions_error host houtcome
      simp only [Transactional.storeAfter, hsame]
      exact SettledSince.refl removed ledger
  | ok summary s' =>
      obtain ⟨aliases, after, hresolved, hrun, hledger⟩ := upsertTransactions_ok host houtcome
      have hafter : SettledSince host removed ledger (summary, after).2 := by
        rw [← hrun]
        refine Runs.run_history (I := fun _ (state : UpsertSummary × Ledger) =>
          SettledSince host removed ledger state.2)
          (SettledSince.refl removed ledger) ?_
        intro done row state hinitial hstate
        have hrow : row ∈ batch.rows :=
          hinitial.subset (List.mem_append_right _ List.mem_cons_self)
        obtain ⟨hwrapper, hne⟩ := hrows row hrow
        exact settledSince_upsertStep hstate (fun _ _ => batchAliases_stored hresolved) hwrapper hne
      simp only [Transactional.storeAfter, hledger]
      exact ⟨hafter.kept, hafter.added⟩

/-- Batches without archived rows leave the coalesced rows alone. -/
theorem settledSince_run {removed : String} {ledger : Ledger} {batches : List UpsertBatch}
    (hrows : ∀ batch ∈ batches, ∀ row ∈ batch.rows,
      archiveWrapper host row.raw = none ∧ row.id ≠ removed) :
    SettledSince host removed ledger (Runs.run (upsertBatch host) ledger batches) := by
  refine Runs.run_history (I := fun _ later => SettledSince host removed ledger later)
    (SettledSince.refl removed ledger) ?_
  intro done batch later hinitial hlater
  have hbatch := hinitial.subset (List.mem_append_right _ List.mem_cons_self)
  exact hlater.trans (settledSince_upsertBatch (hrows batch hbatch))

/-! ## The duplicate comes back -/

/-- The only stored row that matches is found. -/
theorem canonicalRow_of_unique {ledger : Ledger} {canonical incoming : LedgerTransaction}
    {timezone : String} (hstored : canonical ∈ ledger.transactions.rows)
    (hmatches : matchesArchiveInstallment host canonical incoming timezone = true)
    (hunique : ∀ other ∈ ledger.transactions.rows, other.id ≠ incoming.id →
      matchesArchiveInstallment host other incoming timezone = true → other = canonical)
    (hnew : ledger.transactions.find incoming.id = none) :
    canonicalRow host (archiveCandidates ledger) timezone incoming = .ok (some canonical) := by
  have habsent : ∀ row ∈ ledger.transactions.rows, row.id ≠ incoming.id :=
    KeyedTable.find_eq_none.mp hnew
  have hnone : (archiveCandidates ledger).find? (fun row => row.id = incoming.id) = none := by
    rw [List.find?_eq_none]
    intro row hrow
    simpa using habsent row (List.mem_filter.mp hrow).1
  obtain ⟨hcompany, haccount, hidentifier⟩ := company_of_matches hmatches
  have hrows : (archiveCandidates ledger).Nodup :=
    (List.Nodup.of_map _ ledger.transactions.nodup).filter _
  have hmatching : ∀ other, other ∈ ((archiveCandidates ledger).filter fun row =>
        row.accountId = incoming.accountId && row.identifier = incoming.identifier).filter
        (fun row => row.id ≠ incoming.id && matchesArchiveInstallment host row incoming timezone) ↔
      other ∈ [canonical] := by
    intro other
    unfold archiveCandidates
    simp only [List.mem_filter, List.mem_singleton, Bool.and_eq_true, decide_eq_true_eq]
    constructor
    · intro h
      obtain ⟨⟨⟨hother, -⟩, -⟩, hid, hmatch⟩ := h
      exact hunique other hother hid hmatch
    · rintro rfl
      exact ⟨⟨⟨hstored, hcompany⟩, haccount, hidentifier⟩, habsent _ hstored, hmatches⟩
  have hsingle := List.perm_singleton.mp ((List.perm_ext_iff_of_nodup
    ((hrows.filter _).filter _) (List.nodup_singleton canonical)).mpr hmatching)
  unfold canonicalRow
  rw [hnone]
  dsimp only
  unfold findArchiveInstallment
  rw [hsingle]

/-- **Absorption.**  Ingesting a row that only one stored row matches, and
whose id is free, refreshes that row, inserts nothing and logs nothing. -/
theorem upsert_absorbed {ledger : Ledger} {canonical incoming : LedgerTransaction}
    {timezone : String} (hstored : canonical ∈ ledger.transactions.rows)
    (hmatches : matchesArchiveInstallment host canonical incoming timezone = true)
    (hunique : ∀ other ∈ ledger.transactions.rows, other.id ≠ incoming.id →
      matchesArchiveInstallment host other incoming timezone = true → other = canonical)
    (hnew : ledger.transactions.find incoming.id = none) :
    ∃ summary, summary.inserted = 0 ∧ summary.updated + summary.unchanged = 1 ∧
      summary.anomalies = [] ∧
      upsertOutcome host ledger ⟨[incoming], some timezone, []⟩ =
        .ok summary ⟨ledger.refresh host canonical incoming, []⟩ := by
  have hcanonical := canonicalRow_of_unique hstored hmatches hunique hnew
  have hresolve : batchAliases host [incoming] (some timezone) ledger =
      .ok [(incoming.id, canonical)] := by
    simp only [batchAliases, resolveArchiveInstallments, List.foldlM_cons, List.foldlM_nil,
      resolveRow, hcanonical]
    rfl
  have hne : canonical.id ≠ incoming.id := KeyedTable.find_eq_none.mp hnew canonical hstored
  obtain ⟨-, hdescription, hamount⟩ := posted_of_matches hmatches
  have hnodifference : frozenFieldAnomalies host canonical (aliasedIncoming canonical incoming) =
      [] := by
    rw [frozenFieldAnomalies_eq_differences]
    simp [differences, hne, hdescription, hamount]
  let summary : UpsertSummary :=
    if refreshChanges canonical incoming then { updated := 1 } else { unchanged := 1 }
  have hstep : upsertStep host [(incoming.id, canonical)] ({}, ledger) incoming =
      (summary, ledger.refresh host canonical incoming) := by
    unfold upsertStep
    dsimp only
    rw [hnew, Option.none_or, List.lookup_cons_self]
    dsimp only
    rw [hnodifference]
    rfl
  have hsummary : summary.inserted = 0 ∧ summary.updated + summary.unchanged = 1 ∧
      summary.anomalies = [] := by
    cases hchanges : refreshChanges canonical incoming <;> simp [summary, hchanges]
  obtain ⟨hinserted, hcounted, hanomalies⟩ := hsummary
  refine ⟨summary, hinserted, hcounted, hanomalies, ?_⟩
  unfold upsertOutcome
  rw [upsertTransactions_accepted, hresolve]
  dsimp only
  rw [Runs.run_cons, Runs.run_nil, hstep, hanomalies, List.map_nil, List.append_nil]

/-! ## Atomic and permanent -/

/-- Rows that carry an archive wrapper are posted. -/
def WrappersPosted (host : Host) (ledger : Ledger) : Prop :=
  ∀ row ∈ ledger.transactions.rows, (archiveWrapper host row.raw).isSome → row.status = .posted

/-- Between posted rows, both ways. -/
theorem SameOccurrence.symm {old new : LedgerTransaction} (h : SameOccurrence host old new)
    (hold : old.status = .posted) : SameOccurrence host new old :=
  ⟨h.frozen.symm, h.synthetic.symm, h.wrapper.symm, fun _ => hold⟩

/-- A canonical row keeps its occurrence. -/
theorem sameOccurrence_coalesced {v : ReviewedPair} {timezone : String}
    (hmatches : matchesArchiveInstallment host v.canonical v.duplicate timezone = true) :
    SameOccurrence host v.canonical (refreshedRow host v.canonical v.canonical v.duplicate) := by
  apply sameOccurrence_refreshedRow rfl rfl
  exact Or.inl (archiveWrapper_isSome_of_matches hmatches)

/-- Every row that a maintenance run leaves is an occurrence stored before. -/
theorem CoalesceProgress.origin {before after : Ledger} {pairs : List ArchiveInstallmentPair}
    {timezone : String} {validated : List ReviewedPair}
    (h : CoalesceProgress host before validated after)
    (hreviewed : List.Forall₂ (Reviewed host (archiveCandidates before) timezone) pairs validated)
    {row : LedgerTransaction} (hrow : row ∈ after.transactions.rows) :
    ∃ row₀ ∈ before.transactions.rows, SameOccurrence host row₀ row := by
  have hfind := KeyedTable.find_of_mem hrow
  by_cases hlisted : row.id ∈ reviewedIds validated
  · obtain ⟨v, hv, hid⟩ := mem_reviewedIds.mp hlisted
    obtain ⟨pair, -, hpair⟩ := (exists_reviewed hreviewed).2 v hv
    obtain ⟨hcanonical, -, hmatches, -⟩ := hpair.matches_unique
    rcases hid with hid | hid
    · rw [hid, h.refreshed v hv] at hfind
      obtain rfl := Option.some.inj hfind
      exact ⟨v.canonical, hcanonical, sameOccurrence_coalesced hmatches⟩
    · rw [hid, h.removed v hv] at hfind
      cases hfind
  · rw [h.unlisted _ hlisted] at hfind
    exact ⟨row, KeyedTable.mem_of_find hfind, SameOccurrence.refl row⟩

/-- What a maintenance run that wrote its pairs leaves behind: only
transactions moved, the listed duplicates are gone, unlisted rows are
untouched, and a canonical row is refreshed from its duplicate with its frozen
fields and its archive evidence intact. -/
structure Coalesced (host : Host) (pairs : List ArchiveInstallmentPair) (before after : Ledger) :
    Prop where
  onlyTransactions : after = { before with transactions := after.transactions }
  unlisted : ∀ id, id ∉ listedIds pairs → after.transactions.find id = before.transactions.find id
  removed : ∀ pair ∈ pairs, (before.transactions.find pair.duplicateId).isSome ∧
    after.transactions.find pair.duplicateId = none
  kept : ∀ pair ∈ pairs, ∃ canonical duplicate,
    before.transactions.find pair.canonicalId = some canonical ∧
    before.transactions.find pair.duplicateId = some duplicate ∧
    after.transactions.find pair.canonicalId =
      some (refreshedRow host canonical canonical duplicate) ∧
    (archiveWrapper host canonical.raw).isSome ∧
    SameOccurrence host canonical (refreshedRow host canonical canonical duplicate)

/-- Ingesting the removed row alone refreshes the canonical row of its pair
and does nothing else. -/
def Absorbs (host : Host) (timezone : String) (pair : ArchiveInstallmentPair)
    (duplicate : LedgerTransaction) (ledger : Ledger) : Prop :=
  ∃ canonical summary, ledger.transactions.find pair.canonicalId = some canonical ∧
    summary.inserted = 0 ∧ summary.updated + summary.unchanged = 1 ∧ summary.anomalies = [] ∧
    upsertOutcome host ledger ⟨[duplicate], some timezone, []⟩ =
      .ok summary ⟨ledger.refresh host canonical duplicate, []⟩

section
variable {before after : Ledger} {pairs : List ArchiveInstallmentPair} {timezone : String}
  {validated : List ReviewedPair}

/-- **All pairs are coalesced** when the progress is complete. -/
theorem CoalesceProgress.coalesced (h : CoalesceProgress host before validated after)
    (hreviewed : List.Forall₂ (Reviewed host (archiveCandidates before) timezone)
      pairs validated) : Coalesced host pairs before after where
  onlyTransactions := h.frame
  unlisted := by
    intro id hid
    rw [← reviewedIds_eq_listedIds hreviewed] at hid
    exact h.unlisted id hid
  removed := by
    intro pair hpair
    obtain ⟨v, hv, hreview⟩ := (exists_reviewed hreviewed).1 pair hpair
    obtain ⟨-, hduplicate, -⟩ := hreview.matches_unique
    rw [← hreview.duplicateId, KeyedTable.find_of_mem hduplicate]
    exact ⟨rfl, h.removed v hv⟩
  kept := by
    intro pair hpair
    obtain ⟨v, hv, hreview⟩ := (exists_reviewed hreviewed).1 pair hpair
    obtain ⟨hcanonical, hduplicate, hmatches, -⟩ := hreview.matches_unique
    refine ⟨v.canonical, v.duplicate, ?_, ?_, ?_, ?_, sameOccurrence_coalesced hmatches⟩
    · rw [← hreview.canonicalId]
      exact KeyedTable.find_of_mem hcanonical
    · rw [← hreview.duplicateId]
      exact KeyedTable.find_of_mem hduplicate
    · rw [← hreview.canonicalId]
      exact h.refreshed v hv
    · exact archiveWrapper_isSome_of_matches hmatches

/-- **Permanence.**  A ledger settled since the maintenance run absorbs the
removed row. -/
theorem CoalesceProgress.absorbs {later : Ledger} {pair : ArchiveInstallmentPair}
    {duplicate : LedgerTransaction} (h : CoalesceProgress host before validated after)
    (hreviewed : List.Forall₂ (Reviewed host (archiveCandidates before) timezone)
      pairs validated)
    (hposted : WrappersPosted host before) (hpair : pair ∈ pairs)
    (hduplicate : before.transactions.find pair.duplicateId = some duplicate)
    (hlater : SettledSince host pair.duplicateId after later) :
    Absorbs host timezone pair duplicate later := by
  obtain ⟨v, hv, hreview⟩ := (exists_reviewed hreviewed).1 pair hpair
  obtain ⟨-, hstored, hmatches, hunique⟩ := hreview.matches_unique
  rw [← hreview.duplicateId, KeyedTable.find_of_mem hstored] at hduplicate
  obtain rfl := Option.some.inj hduplicate
  rw [← hreview.duplicateId] at hlater
  -- the canonical row is still there
  have hrefreshed := h.refreshed v hv
  obtain ⟨canonical, hfind, hsame⟩ := hlater.kept _ (KeyedTable.mem_of_find hrefreshed)
  have hoccurrence := (sameOccurrence_coalesced hmatches).trans hsame
  have hid : canonical.id = v.canonical.id := hoccurrence.id_eq
  have hcanonical : canonical ∈ later.transactions.rows := KeyedTable.mem_of_find hfind
  -- and nothing else matches
  have honly : ∀ other ∈ later.transactions.rows, other.id ≠ v.duplicate.id →
      matchesArchiveInstallment host other v.duplicate timezone = true → other = canonical := by
    intro other hother hne hmatch
    have hwrapper := archiveWrapper_isSome_of_matches hmatch
    obtain ⟨row₁, hrow₁, hsame₁⟩ := hlater.origin hother hwrapper
    obtain ⟨row₀, hrow₀, hsame₀⟩ := h.origin hreviewed hrow₁
    have hsame' := hsame₀.trans hsame₁
    rw [hsame'.wrapper] at hwrapper
    have hmatch₀ := (hsame'.symm (hposted row₀ hrow₀ hwrapper)).matches hmatch
    have hrow : row₀ = v.canonical :=
      hunique row₀ hrow₀ (fun heq => hne (hsame'.id_eq.trans heq)) hmatch₀
    apply KeyedTable.eq_of_key_eq hother hcanonical
    rw [hsame'.id_eq, hrow, hid]
  have hgone : later.transactions.find v.duplicate.id = none := by
    cases hrow : later.transactions.find v.duplicate.id with
    | none => rfl
    | some row =>
        have hrowid := KeyedTable.key_of_find hrow
        have habsent : after.transactions.find row.id = none := by
          rw [hrowid]
          exact h.removed v hv
        exact absurd hrowid (hlater.added row (KeyedTable.mem_of_find hrow) habsent).2
  obtain ⟨summary, hinserted, hcounted, hanomalies, houtcome⟩ :=
    upsert_absorbed hcanonical (hoccurrence.matches hmatches) honly hgone
  refine ⟨canonical, summary, ?_, hinserted, hcounted, hanomalies, houtcome⟩
  rw [← hreview.canonicalId, ← hid]
  exact KeyedTable.find_of_mem hcanonical

end

/-- What a call may end in: it throws and leaves the ledger as it was, or is a
dry run and leaves it as it was, or writes what `Coalesced` says; and from then
on, whatever rows without evidence are ingested under other ids, every removed
row is absorbed by its canonical row. -/
structure CoalesceOutcome (host : Host) (pairs : List ArchiveInstallmentPair) (timezone : String)
    (dryRun : Bool) (ledger : Ledger)
    (result : EStateM.Result BridgeError Session CoalesceSummary) : Prop where
  thrown : ∀ e s, result = .error e s → s.ledger = ledger
  dry : dryRun = true → ∀ summary s, result = .ok summary s → s.ledger = ledger
  written : dryRun = false → ∀ summary s, result = .ok summary s →
    Coalesced host pairs ledger s.ledger
  permanent : dryRun = false → ∀ summary s, result = .ok summary s →
    ∀ pair ∈ pairs, ∀ duplicate, ledger.transactions.find pair.duplicateId = some duplicate →
    ∀ batches : List UpsertBatch,
      (∀ batch ∈ batches, batch.timezone = some timezone ∧
        ∀ row ∈ batch.rows, archiveWrapper host row.raw = none ∧ row.id ≠ pair.duplicateId) →
      Absorbs host timezone pair duplicate (Runs.run (upsertBatch host) s.ledger batches)

/-- **Coalescing is atomic and permanent.** -/
theorem coalescing_atomic_and_permanent (ledger : Ledger) (hposted : WrappersPosted host ledger)
    (pairs : List ArchiveInstallmentPair) (timezone : String) (dryRun : Bool)
    (faults : List Bool) :
    CoalesceOutcome host pairs timezone dryRun ledger
      (coalesceArchiveInstallments host pairs timezone dryRun ⟨ledger, faults⟩) where
  thrown := fun _ _ hcall => coalesceArchiveInstallments_error hcall
  dry := by
    intro hdry summary s hcall
    obtain ⟨validated, -, -, hledger⟩ := coalesceArchiveInstallments_ok hcall
    rw [hledger, if_pos hdry]
  written := by
    intro hwrite summary s hcall
    obtain ⟨validated, hreviewed, hprogress⟩ := coalesceProgress_of_ok hwrite hcall
    exact hprogress.coalesced hreviewed
  permanent := by
    intro hwrite summary s hcall pair hpair duplicate hduplicate batches hbatches
    obtain ⟨validated, hreviewed, hprogress⟩ := coalesceProgress_of_ok hwrite hcall
    apply hprogress.absorbs hreviewed hposted hpair hduplicate
    exact settledSince_run fun batch hbatch => (hbatches batch hbatch).2

/-- The reviewed pair of the archived fridge and its portal row. -/
def fridgePair : ArchiveInstallmentPair where
  canonicalId := archivedFridge.id
  duplicateId := portalFridge.id
  canonicalStateHash := archiveInstallmentStateHash asciiHost archivedFridge
  duplicateStateHash := archiveInstallmentStateHash asciiHost portalFridge

/-- A ledger that holds the fridge under both ids. -/
def fridgeTwice : Ledger :=
  { emptyLedger with
    transactions := (KeyedTable.empty.put archivedFridge).put portalFridge }

/-- The two fridges are a pair. -/
theorem validate_fridgePair :
    validateArchiveInstallmentPairs asciiHost [fridgePair] (archiveCandidates fridgeTwice)
      "Asia/Jerusalem" = .ok [⟨archivedFridge, portalFridge⟩] := by
  have hcanonical : (archiveCandidates fridgeTwice).find? (fun row => row.id = archivedFridge.id) =
      some archivedFridge := by decide +kernel
  have hduplicate : (archiveCandidates fridgeTwice).find? (fun row => row.id = portalFridge.id) =
      some portalFridge := by decide +kernel
  have hfind : findArchiveInstallment asciiHost (archiveCandidates fridgeTwice) portalFridge
      "Asia/Jerusalem" = .ok (some archivedFridge) := by decide +kernel
  have hpair : validatePair asciiHost (archiveCandidates fridgeTwice) "Asia/Jerusalem" fridgePair =
      .ok ⟨archivedFridge, portalFridge⟩ := by
    unfold validatePair fridgePair
    simp only [hcanonical, hduplicate, hfind]
    simp
  have hids : (listedIds [fridgePair]).Nodup := by decide +kernel
  unfold validateArchiveInstallmentPairs
  rw [if_neg (by decide), if_neg (not_not.mpr hids), Transactional.mapM_ok_iff]
  simp [hpair]

/-- They become one row, and stay one. -/
theorem coalescing_fridge : ∃ s,
    coalesceArchiveInstallments asciiHost [fridgePair] "Asia/Jerusalem" false ⟨fridgeTwice, []⟩ =
      .ok ⟨1, 1⟩ s ∧
    Coalesced asciiHost [fridgePair] fridgeTwice s.ledger ∧
    Absorbs asciiHost "Asia/Jerusalem" fridgePair portalFridge s.ledger := by
  have hposted : WrappersPosted asciiHost fridgeTwice := by
    unfold WrappersPosted
    decide +kernel
  have h := coalescing_atomic_and_permanent fridgeTwice hposted [fridgePair] "Asia/Jerusalem"
    false []
  have hcall : coalesceArchiveInstallments asciiHost [fridgePair] "Asia/Jerusalem" false
      ⟨fridgeTwice, []⟩ = .ok ⟨1, 1⟩
        ⟨coalesceStep asciiHost fridgeTwice ⟨archivedFridge, portalFridge⟩, []⟩ := by
    unfold coalesceArchiveInstallments
    apply Transactional.transaction_ok.mpr
    have hquery : query archiveCandidates ⟨fridgeTwice, []⟩ =
        .ok (archiveCandidates fridgeTwice) ⟨fridgeTwice, []⟩ := rfl
    rw [Transactional.bind_of_ok hquery, validate_fridgePair]
    rfl
  have hduplicate : fridgeTwice.transactions.find fridgePair.duplicateId = some portalFridge := by
    decide +kernel
  have hnow := h.permanent rfl _ _ hcall fridgePair List.mem_cons_self portalFridge hduplicate []
    (fun _ hbatch => absurd hbatch List.not_mem_nil)
  exact ⟨_, hcall, h.written rfl _ _ hcall, hnow⟩

end

end SimplefinBridge
