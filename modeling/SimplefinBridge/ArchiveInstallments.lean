import SimplefinBridge.Types
import SimplefinBridge.Library.Transactional

/-!
# Archived installments

Rows imported from an archive carry the evidence they were built from under
`raw.archiveMigration`.  The portal reports the same purchase under another
id; `resolveArchiveInstallments` finds the archived row each incoming row
stands for, and refuses a batch in which that is ambiguous.
-/

namespace SimplefinBridge

section
variable (host : Host)

/-! ## The archive wrapper -/

/-- `z.object({origin: z.enum(…), originRowId: z.uuid()})` -/
def isArchiveWrapper (value : Json) : Bool :=
  value.object.isSome &&
    (Json.asString (value.field "origin")).any
      (fun origin => origin = "actual" || origin = "sure") &&
    (Json.asString (value.field "originRowId")).any host.isUuid

/-- The archive wrapper of a raw payload, when it is valid. -/
def archiveWrapper (raw : Json) : Option Json :=
  (raw.field "archiveMigration").filter (isArchiveWrapper host)

/-- Keep original archive evidence across ordinary portal refreshes. -/
def preserveArchiveRaw (existing incoming : LedgerTransaction) : Json :=
  match archiveWrapper host existing.raw with
  | some archive => incoming.raw.withField "archiveMigration" archive
  | none => incoming.raw

theorem archiveWrapper_preserveArchiveRaw {existing incoming : LedgerTransaction} {archive : Json}
    (h : archiveWrapper host existing.raw = some archive) :
    archiveWrapper host (preserveArchiveRaw host existing incoming) = some archive := by
  have hvalid : isArchiveWrapper host archive = true := by
    exact (Option.filter_eq_some_iff.mp h).2
  unfold preserveArchiveRaw
  rw [h]
  simp [archiveWrapper, hvalid]

/-! ## Matching one occurrence -/

/-- `/^\d{4}-\d{2}-\d{2}(?:T|$)/` -/
def startsWithDate : List Char → Bool
  | y₁ :: y₂ :: y₃ :: y₄ :: '-' :: m₁ :: m₂ :: '-' :: d₁ :: d₂ :: rest =>
      [y₁, y₂, y₃, y₄, m₁, m₂, d₁, d₂].all Char.isDigit && (rest = [] || rest.head? = some 'T')
  | _ => false

/-- The calendar date of a text that spells an occurrence. -/
def occurrenceDate (value : Option Json) (timezone : String) : Option IsoDate :=
  match Json.asString value with
  | some text =>
      if jsLength text > 40 || !startsWithDate text.toList then none
      else host.momentDate text timezone
  | none => none

/-- What `archiveSchema` reads out of a wrapper. -/
structure ArchiveEvidence where
  originRowId : String
  purchaseOrEventDate : IsoDate
  sourceIdentifier : String
  recordOriginRowId : String
  recordAccountId : String
  /-- `Number(record.amount)` -/
  recordAmount : Option ℚ
  recordCurrency : String
  recordDescription : String
  recordPurchaseDate : IsoDate
  deriving DecidableEq

/-- A field that must be a string accepted by `check`. -/
def textField (value : Json) (key : String) (check : String → Bool) : Option String :=
  (Json.asString (value.field key)).filter check

/-- `Number(x)` of a field of type `string | number`; the outer `none` means
neither. -/
def amountField (value : Json) : Option (Option ℚ) :=
  match value.field "amount" with
  | some (.str text) => some (host.number text)
  | some (.num x) => some (some x)
  | _ => none

/-- `archiveSchema.safeParse` -/
def parseArchive (wrapper : Json) : Option ArchiveEvidence := do
  let _ ← textField wrapper "origin" fun origin => origin = "actual" || origin = "sure"
  let originRowId ← textField wrapper "originRowId" host.isUuid
  let purchaseOrEventDate ← textField wrapper "purchaseOrEventDate" host.isIsoDate
  let sourceIdentifier ← textField wrapper "sourceIdentifier" (· ≠ "")
  let record ← wrapper.field "sourceRecord"
  let recordOriginRowId ← textField record "origin_row_id" host.isUuid
  let recordAccountId ← textField record "account_id" fun _ => true
  let _ ← textField record "company" (· = "visaCal")
  let recordAmount ← amountField host record
  let recordCurrency ← textField record "currency" fun _ => true
  let recordDescription ← textField record "description" fun _ => true
  let recordPurchaseDate ← textField record "purchase_date" host.isIsoDate
  return { originRowId, purchaseOrEventDate, sourceIdentifier, recordOriginRowId,
           recordAccountId, recordAmount, recordCurrency, recordDescription,
           recordPurchaseDate }

/-- The row fields both sides must share before any evidence is read. -/
def sameInstallment (archive incoming : LedgerTransaction) : Bool :=
  archive.company = "visaCal" && incoming.company = "visaCal" &&
    !archive.synthetic && !incoming.synthetic &&
    archive.status = .posted && incoming.status = .posted &&
    archive.identifier.any (· ≠ "") && archive.identifier = incoming.identifier &&
    archive.accountId = incoming.accountId && archive.amount = incoming.amount &&
    archive.currency = incoming.currency && archive.description = incoming.description &&
    archive.installmentNumber.any isSafeInteger && archive.installmentTotal.any isSafeInteger &&
    archive.installmentNumber.any (1 ≤ ·) && archive.installmentTotal.any (2 ≤ ·) &&
    archive.installmentNumber.getD 0 ≤ archive.installmentTotal.getD 0 &&
    archive.installmentNumber = incoming.installmentNumber &&
    archive.installmentTotal = incoming.installmentTotal

/-- The evidence describes the archived row. -/
def evidenceOfArchive (evidence : ArchiveEvidence) (archive : LedgerTransaction) : Bool :=
  evidence.originRowId.toList.map Char.toLower =
      evidence.recordOriginRowId.toList.map Char.toLower &&
    some evidence.sourceIdentifier = archive.identifier &&
    evidence.recordAccountId = archive.accountId &&
    evidence.recordAmount = some archive.amount &&
    evidence.recordCurrency = archive.currency &&
    JsText.ofString evidence.recordDescription = archive.description &&
    evidence.purchaseOrEventDate = evidence.recordPurchaseDate

/-- `String(raw.identifier)` of an identifier that is a string or a number. -/
def rawIdentifier (raw : Json) : Option String :=
  match raw.field "identifier" with
  | some (.str text) => some text
  | some (.num x) => some (host.numberToString x)
  | _ => none

/-- The portal payload describes the incoming row and the same purchase. -/
def payloadOfIncoming (evidence : ArchiveEvidence) (incoming : LedgerTransaction)
    (timezone : String) : Bool :=
  let raw := incoming.raw
  let installments := raw.field "installments"
  some evidence.purchaseOrEventDate = occurrenceDate host (raw.field "date") timezone &&
    Json.asNumber (installments.bind (·.field "number")) = incoming.installmentNumber &&
    Json.asNumber (installments.bind (·.field "total")) = incoming.installmentTotal &&
    (rawIdentifier host raw).isSome && rawIdentifier host raw = incoming.identifier &&
    (Json.asString (raw.field "description")).map JsText.ofString = some incoming.description &&
    Json.asNumber (raw.field "chargedAmount") = some incoming.amount &&
    incoming.chargeDate.isSome &&
    incoming.chargeDate = occurrenceDate host (raw.field "processedDate") timezone

/-- Equal where both are known. -/
def agree {α : Type} [DecidableEq α] (a b : Option α) : Bool := a = none || b = none || a = b

/-- A source ID alone is reused across installments: require the entire
observed occurrence. -/
def matchesArchiveInstallment (archive incoming : LedgerTransaction) (timezone : String) : Bool :=
  sameInstallment archive incoming &&
    match (archive.raw.field "archiveMigration").bind (parseArchive host) with
    | none => false
    | some evidence =>
        evidenceOfArchive evidence archive && payloadOfIncoming host evidence incoming timezone &&
          agree archive.originalAmount incoming.originalAmount &&
          agree archive.originalCurrency incoming.originalCurrency

/-- Refuse ambiguous occurrences instead of guessing which archived row a
portal ID refers to. -/
def findArchiveInstallment (candidates : List LedgerTransaction) (incoming : LedgerTransaction)
    (timezone : String) : Except BridgeError (Option LedgerTransaction) :=
  match candidates.filter fun row =>
      row.id ≠ incoming.id && matchesArchiveInstallment host row incoming timezone with
  | [] => .ok none
  | [row] => .ok (some row)
  | _ => .error .ambiguousInstallment

/-! ## Resolving a batch -/

/-- The two maps `resolveArchiveInstallments` fills: incoming id to archived
row, and archived id to the incoming id that took it. -/
structure Aliases where
  resolved : List (String × LedgerTransaction) := []
  claimed : List (String × String) := []

/-- The stored row with the id of the incoming one, or the archived row it
matches. -/
def canonicalRow (stored : List LedgerTransaction) (timezone : String)
    (incoming : LedgerTransaction) : Except BridgeError (Option LedgerTransaction) :=
  match stored.find? fun row => row.id = incoming.id with
  | some existing => .ok (some existing)
  | none =>
      let candidates := stored.filter fun row =>
        row.accountId = incoming.accountId && row.identifier = incoming.identifier
      findArchiveInstallment host candidates incoming timezone

def resolveRow (stored : List LedgerTransaction) (timezone : String) (aliases : Aliases)
    (incoming : LedgerTransaction) : Except BridgeError Aliases :=
  match canonicalRow host stored timezone incoming with
  | .error e => .error e
  | .ok none => .ok aliases
  | .ok (some canonical) =>
      if (aliases.claimed.lookup canonical.id).any (· ≠ incoming.id) then
        .error .installmentClaimedTwice
      else
        .ok { resolved := (incoming.id, canonical) :: aliases.resolved
              claimed := (canonical.id, incoming.id) :: aliases.claimed }

/-- Resolve a whole scrape before writing, so two portal rows cannot consume
one archive occurrence. -/
def resolveArchiveInstallments (rows stored : List LedgerTransaction) (timezone : String) :
    Except BridgeError (List (String × LedgerTransaction)) :=
  (rows.foldlM (resolveRow host stored timezone) {}).map (·.resolved)

/-! ## What a resolution guarantees -/

variable {host}

/-- A match compares the company, the account and the identifier. -/
theorem company_of_matches {archive incoming : LedgerTransaction} {timezone : String}
    (h : matchesArchiveInstallment host archive incoming timezone = true) :
    archive.company = "visaCal" ∧ archive.accountId = incoming.accountId ∧
      archive.identifier = incoming.identifier := by
  unfold matchesArchiveInstallment at h
  have hsame := (Bool.and_eq_true_iff.mp h).1
  simp only [sameInstallment, Bool.and_eq_true, decide_eq_true_eq] at hsame
  obtain ⟨⟨⟨⟨⟨⟨⟨⟨⟨⟨⟨⟨⟨⟨⟨⟨⟨⟨hcompany, -⟩, -⟩, -⟩, -⟩, -⟩, -⟩, hidentifier⟩, haccount⟩, -⟩, -⟩, -⟩,
    -⟩, -⟩, -⟩, -⟩, -⟩, -⟩, -⟩ := hsame
  exact ⟨hcompany, haccount, hidentifier⟩

/-- The archived row found for an incoming one is the only candidate under
another id that matches it. -/
theorem findArchiveInstallment_ok_some {candidates : List LedgerTransaction}
    {incoming row : LedgerTransaction} {timezone : String}
    (h : findArchiveInstallment host candidates incoming timezone = .ok (some row)) :
    row ∈ candidates ∧ row.id ≠ incoming.id ∧
      matchesArchiveInstallment host row incoming timezone = true ∧
      ∀ other ∈ candidates, other.id ≠ incoming.id →
        matchesArchiveInstallment host other incoming timezone = true → other = row := by
  unfold findArchiveInstallment at h
  split at h
  · cases h
  · rename_i found hfilter
    obtain rfl := Option.some.inj (Except.ok.inj h)
    have hmem : ∀ other, other ∈ candidates ∧ (other.id ≠ incoming.id ∧
        matchesArchiveInstallment host other incoming timezone = true) ↔ other = found := by
      intro other
      have hiff := List.mem_singleton (a := other) (b := found)
      rw [← hfilter, List.mem_filter] at hiff
      simpa using hiff
    obtain ⟨hfound, hne, hmatches⟩ := (hmem found).mpr rfl
    refine ⟨hfound, hne, hmatches, ?_⟩
    intro other hother hid hmatch
    exact (hmem other).mp ⟨hother, hid, hmatch⟩
  · cases h

theorem findArchiveInstallment_ok_none {candidates : List LedgerTransaction}
    {incoming row : LedgerTransaction} {timezone : String}
    (h : findArchiveInstallment host candidates incoming timezone = .ok none)
    (hrow : row ∈ candidates) (hne : row.id ≠ incoming.id) :
    matchesArchiveInstallment host row incoming timezone = false := by
  unfold findArchiveInstallment at h
  split at h
  · rename_i hfilter
    have hno := List.filter_eq_nil_iff.mp hfilter row hrow
    simpa [hne] using hno
  · cases h
  · cases h

/-- The canonical row of an incoming one has its id, or is the only stored
row under another id that matches it. -/
theorem canonicalRow_ok_some {stored : List LedgerTransaction} {incoming row : LedgerTransaction}
    {timezone : String} (h : canonicalRow host stored timezone incoming = .ok (some row)) :
    row ∈ stored ∧ (row.id = incoming.id ∨
      (row.id ≠ incoming.id ∧ matchesArchiveInstallment host row incoming timezone = true ∧
        ∀ other ∈ stored, other.id ≠ incoming.id →
          matchesArchiveInstallment host other incoming timezone = true → other = row)) := by
  unfold canonicalRow at h
  split at h
  · rename_i existing hfind
    obtain rfl := Option.some.inj (Except.ok.inj h)
    have hid := List.find?_some hfind
    exact ⟨List.mem_of_find?_eq_some hfind, Or.inl (by simpa using hid)⟩
  · obtain ⟨hmem, hne, hmatches, hunique⟩ := findArchiveInstallment_ok_some h
    refine ⟨(List.mem_filter.mp hmem).1, Or.inr ⟨hne, hmatches, ?_⟩⟩
    intro other hother hid hmatch
    obtain ⟨-, haccount, hidentifier⟩ := company_of_matches hmatch
    apply hunique other _ hid hmatch
    rw [List.mem_filter]
    exact ⟨hother, by simp [haccount, hidentifier]⟩

/-- A stored row with the incoming id is the canonical one. -/
theorem canonicalRow_of_mem {stored : List LedgerTransaction} {incoming row : LedgerTransaction}
    (timezone : String) (hmem : row ∈ stored) (hid : row.id = incoming.id) :
    ∃ existing, canonicalRow host stored timezone incoming = .ok (some existing) ∧
      existing.id = incoming.id := by
  unfold canonicalRow
  cases hfind : stored.find? fun row => row.id = incoming.id with
  | none =>
      have hnone := List.find?_eq_none.mp hfind row hmem
      simp [hid] at hnone
  | some existing =>
      have hsome := List.find?_some hfind
      exact ⟨existing, rfl, by simpa using hsome⟩

/-- The maps agree with the rows resolved so far, and no canonical row is
claimed under two ids. -/
structure Resolved (host : Host) (stored : List LedgerTransaction) (timezone : String)
    (done : List LedgerTransaction) (aliases : Aliases) : Prop where
  entry : ∀ e ∈ aliases.resolved, ∃ row ∈ done, row.id = e.1 ∧
    canonicalRow host stored timezone row = .ok (some e.2)
  claimed : ∀ e ∈ aliases.resolved, aliases.claimed.lookup e.2.id = some e.1
  complete : ∀ row ∈ done, ∃ canonical, canonicalRow host stored timezone row = .ok canonical ∧
    ∀ c, canonical = some c → (row.id, c) ∈ aliases.resolved

theorem Resolved.step {stored done : List LedgerTransaction} {timezone : String}
    {aliases aliases' : Aliases} {row : LedgerTransaction}
    (h : Resolved host stored timezone done aliases)
    (hstep : resolveRow host stored timezone aliases row = .ok aliases') :
    Resolved host stored timezone (done ++ [row]) aliases' := by
  unfold resolveRow at hstep
  split at hstep
  · cases hstep
  · rename_i hnone
    obtain rfl := Except.ok.inj hstep
    refine ⟨?_, h.claimed, ?_⟩
    · intro e he
      obtain ⟨y, hy, hrest⟩ := h.entry e he
      exact ⟨y, List.mem_append_left _ hy, hrest⟩
    · intro y hy
      rcases List.mem_append.mp hy with hy | hy
      · exact h.complete y hy
      · obtain rfl := List.mem_singleton.mp hy
        exact ⟨none, hnone, fun _ hc => by cases hc⟩
  · rename_i canonical hcanonical
    split_ifs at hstep with hclaimed
    obtain rfl := Except.ok.inj hstep
    refine ⟨?_, ?_, ?_⟩
    · intro e he
      rcases List.mem_cons.mp he with rfl | he
      · exact ⟨row, List.mem_append_right _ List.mem_cons_self, rfl, hcanonical⟩
      · obtain ⟨y, hy, hrest⟩ := h.entry e he
        exact ⟨y, List.mem_append_left _ hy, hrest⟩
    · intro e he
      rcases List.mem_cons.mp he with rfl | he
      · exact List.lookup_cons_self
      · have hold := h.claimed e he
        by_cases hsame : e.2.id = canonical.id
        · -- the row was claimed before, so under this very id
          rw [hsame] at hold
          have hrow : e.1 = row.id := by
            by_contra hne
            exact hclaimed (by rw [hold]; simpa using hne)
          rw [hsame, hrow]
          exact List.lookup_cons_self
        · rw [List.lookup_cons, beq_false_of_ne hsame]
          exact hold
    · intro y hy
      rcases List.mem_append.mp hy with hy | hy
      · obtain ⟨c, hc, hentry⟩ := h.complete y hy
        exact ⟨c, hc, fun d hd => List.mem_cons_of_mem _ (hentry d hd)⟩
      · obtain rfl := List.mem_singleton.mp hy
        refine ⟨some canonical, hcanonical, ?_⟩
        intro c hc
        obtain rfl := Option.some.inj hc
        exact List.mem_cons_self

/-- **A resolution.**  Every entry pairs an incoming id with the canonical
row of an incoming row; rows without an entry have no canonical row; and two
entries about one stored row carry one incoming id. -/
theorem resolveArchiveInstallments_ok {rows stored : List LedgerTransaction} {timezone : String}
    {resolved : List (String × LedgerTransaction)}
    (h : resolveArchiveInstallments host rows stored timezone = .ok resolved) :
    (∀ e ∈ resolved, ∃ row ∈ rows, row.id = e.1 ∧
      canonicalRow host stored timezone row = .ok (some e.2)) ∧
    (∀ row ∈ rows, ∃ canonical, canonicalRow host stored timezone row = .ok canonical ∧
      ∀ c, canonical = some c → (row.id, c) ∈ resolved) ∧
    ∀ e ∈ resolved, ∀ e' ∈ resolved, e.2.id = e'.2.id → e.1 = e'.1 := by
  unfold resolveArchiveInstallments at h
  cases hfold : rows.foldlM (resolveRow host stored timezone) {} with
  | error e =>
      rw [hfold] at h
      cases h
  | ok aliases =>
      rw [hfold] at h
      obtain rfl := Except.ok.inj h
      have hstart : Resolved host stored timezone [] {} :=
        ⟨fun _ he => absurd he List.not_mem_nil, fun _ he => absurd he List.not_mem_nil,
          fun _ hrow => absurd hrow List.not_mem_nil⟩
      have hresolved : Resolved host stored timezone rows aliases :=
        Transactional.except_foldlM_ok (Resolved host stored timezone)
          (fun _ _ _ _ hdone hrow => hdone.step hrow) hstart hfold
      refine ⟨hresolved.entry, hresolved.complete, ?_⟩
      intro e he e' he' hsame
      have hclaimed := hresolved.claimed e he
      rw [hsame, hresolved.claimed e' he'] at hclaimed
      exact (Option.some.inj hclaimed).symm

end

/-! ## An archived instalment -/

/-- The second instalment of a fridge, imported from an archive. -/
def archivedFridge : LedgerTransaction where
  id := "visaCal:1234:archive-1"
  accountId := "visaCal:1234"
  company := "visaCal"
  identifier := some "777"
  bookedDate := "2026-01-05"
  chargeDate := none
  amount := -100
  currency := "ILS"
  description := "Fridge"
  memo := none
  status := .posted
  installmentNumber := some 2
  installmentTotal := some 3
  originalAmount := none
  originalCurrency := none
  category := none
  synthetic := false
  firstSeen := 0
  lastSeen := 0
  idSchemeVersion := idSchemeVersion
  raw := .obj [("archiveMigration", .obj [
    ("origin", .str "actual"),
    ("originRowId", .str "0f8b6a52-7c1e-4d39-9a64-2b1f0c9d8e77"),
    ("purchaseOrEventDate", .str "2026-01-05"),
    ("sourceIdentifier", .str "777"),
    ("sourceRecord", .obj [
      ("origin_row_id", .str "0f8b6a52-7c1e-4d39-9a64-2b1f0c9d8e77"),
      ("account_id", .str "visaCal:1234"),
      ("company", .str "visaCal"),
      ("amount", .num (-100)),
      ("currency", .str "ILS"),
      ("description", .str "Fridge"),
      ("purchase_date", .str "2026-01-05")])])]

/-- The same instalment as the portal reports it. -/
def portalFridge : LedgerTransaction :=
  { archivedFridge with
    id := "visaCal:1234:777"
    chargeDate := some "2026-02-10"
    raw := .obj [
      ("date", .str "2026-01-05T00:00:00"),
      ("processedDate", .str "2026-02-10T00:00:00"),
      ("identifier", .num 777),
      ("description", .str "Fridge"),
      ("chargedAmount", .num (-100)),
      ("installments", .obj [("number", .num 2), ("total", .num 3)])] }

example : findArchiveInstallment asciiHost [archivedFridge] portalFridge "Asia/Jerusalem" =
    .ok (some archivedFridge) := by decide +kernel

end SimplefinBridge
