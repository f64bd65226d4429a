import SimplefinBridge.HapoalimExecutions
import SimplefinBridge.InvestmentFeed
import SimplefinBridge.InvestmentIds

/-!
# Archives of Hapoalim

Old valuations survive in an export of another program.  A reviewer prepares a
manifest of them, with the hash of the export; `prepareHapoalimArchive` turns
the manifest into a snapshot, and `seedHapoalimArchive` stores it after it has
compared every valuation with the entries of the export itself.
-/

namespace SimplefinBridge

open Statements (ReadOnly WritesOnce ensure readOnly_ensure readOnly_pure)
open Transactional (bind_of_ok except_bind_ok exists_ok_of_any storeAfter)

/-- Why an archive is refused. -/
inductive SeedError
  /-- Expected a reviewed surviving Hapoalim valuation archive and explicit securities identity -/
  | unreviewed
  /-- Archive identities or valuation dates are inconsistent -/
  | identities
  /-- Archive valuation differs from its original evidence -/
  | evidence
  /-- Archive target must match an explicitly configured Hapoalim bank account -/
  | target
  /-- A file that is not there. -/
  | missingFile
  /-- Archive input must be a bounded regular file -/
  | inputFile
  /-- Archive input is not valid JSON -/
  | inputJson
  /-- Archive source hash does not match the reviewed evidence -/
  | sourceHash
  /-- Archive source is not the surviving valuation-only export -/
  | sourceExport
  /-- Reviewed valuation does not match the hashed source export -/
  | sourceEntry
  /-- Investment database must be opened by its owning service user and group -/
  | ownership
  /-- Archive backup directory must be private and owned by the service user -/
  | backupDirectory
  /-- Archive backup already exists -/
  | backupExists
  /-- What opening the store or writing its backup throws. -/
  | backup
  /-- Archive seed unexpectedly changed provider freshness -/
  | freshness
  | store (error : InvestmentError)
  | feed (error : FeedError)
  deriving DecidableEq, Repr

/-! ## The manifest -/

/-- `provenance.sourceEntry`, and an entry of the export. -/
structure SourceEntry where
  id : String
  accountId : String
  entryableId : String
  date : IsoDate
  amount : String
  currency : String
  deriving DecidableEq, Repr

/-- A valuation of the manifest. -/
structure ArchiveRow where
  sourceEntryId : String
  externalIdentity : String
  legacyAccountIdentity : String
  currency : String
  observedAt : String
  asOf : IsoDate
  amount : String
  sourceEntry : SourceEntry
  sourceValuationId : String
  deriving DecidableEq, Repr

/-- Where the manifest says it comes from. -/
structure ArchiveSource where
  sha256 : String
  observedAt : String
  observationBasis : ObservationBasis
  deriving DecidableEq, Repr

/-- The account that it is about. -/
structure ArchiveAccount where
  legacyIdentity : String
  currency : String
  sourceAccountId : String
  deriving DecidableEq, Repr

/-- The manifest, as far as it is used. -/
structure Archive where
  source : ArchiveSource
  account : ArchiveAccount
  valuations : List ArchiveRow
  deriving DecidableEq, Repr

/-- `z.literal(text)` -/
def isLiteral (text : String) (value : JsValue) : Bool := value.asText = some text

/-- `z.literal(1)` -/
def isOne (value : JsValue) : Bool :=
  match value with
  | .number (some x) => x = 1
  | _ => false

/-- `z.literal(false)` -/
def isFalse (value : JsValue) : Bool :=
  match value with
  | .bool value => !value
  | _ => false

/-- `z.array(z.unknown()).length(0)` -/
def isEmptyArray (value : JsValue) : Bool :=
  match value with
  | .array [] => true
  | _ => false

/-- A text that a check accepts. -/
def textWhere (check : String → Bool) (value : JsValue) : Option String := value.asText.filter check

/-- `Date.parse` of `z.iso.datetime({offset: true})`: the time of the zone,
less its offset. -/
def offsetParse (value : String) : Option Int :=
  match dateParse value with
  | some instant => some instant
  | none =>
      let start := value.toList.length - 6
      let offset := value.toList.drop start
      let hours := Nat.ofDigitChars 10 ((offset.drop 1).take 2) 0
      let minutes := Nat.ofDigitChars 10 (offset.drop 4) 0
      let milliseconds : Int := (hours * 60 + minutes) * 60000
      let localTime := dateParse (String.ofList (value.toList.take start ++ ['Z']))
      if 24 ≤ hours ∨ 60 ≤ minutes then none
      else if hasShape "+dd:dd".toList offset then localTime.map (· - milliseconds)
      else if hasShape "-dd:dd".toList offset then localTime.map (· + milliseconds)
      else none

/-- `z.iso.datetime({offset: true})` -/
def isOffsetTimestamp (value : String) : Bool := (offsetParse value).isSome

/-- `new Date(value).toISOString()` of an accepted time. -/
def isoString (value : String) : String := ((offsetParse value).map toIsoString).getD ""

/-- One of the two bases. -/
def observationBasisOf (value : JsValue) : Option ObservationBasis :=
  if isLiteral "archive_capture" value then some .archive_capture
  else if isLiteral "archive_read" value then some .archive_read
  else none

section
variable (host : Host)

/-- An entry of the export, or of the evidence. -/
def readSourceEntry (value : JsValue) : Option SourceEntry := do
  let fields ← value.asRecord
  let id ← textWhere host.isUuid (JsValue.get fields "id")
  let accountId ← textWhere host.isUuid (JsValue.get fields "account_id")
  let entryableId ← textWhere host.isUuid (JsValue.get fields "entryable_id")
  let date ← textWhere host.isIsoDate (JsValue.get fields "date")
  let amount ← textWhere isValuationMoney (JsValue.get fields "amount")
  let currency ← (JsValue.get fields "currency").asText
  if isLiteral "Valuation" (JsValue.get fields "entryable_type") &&
      isFalse (JsValue.get fields "excluded") then
    some { id, accountId, entryableId, date, amount, currency }
  else none

/-- `sourceValuation`, of which only the id is used. -/
def readSourceValuation (value : JsValue) : Option String := do
  let fields ← value.asRecord
  let id ← textWhere host.isUuid (JsValue.get fields "id")
  if isLiteral "reconciliation" (JsValue.get fields "kind") then some id else none

/-- A valuation of the manifest, if it has the shape of one. -/
def readArchiveRow (value : JsValue) : Option ArchiveRow := do
  let fields ← value.asRecord
  let sourceEntryId ← textWhere host.isUuid (JsValue.get fields "sourceEntryId")
  let externalIdentity ← (JsValue.get fields "externalIdentity").asText
  let legacyAccountIdentity ← (JsValue.get fields "legacyAccountIdentity").asText
  let currency ← textWhere isCurrencyCode (JsValue.get fields "currency")
  let observedAt ← textWhere isOffsetTimestamp (JsValue.get fields "observedAt")
  let asOf ← textWhere host.isIsoDate (JsValue.get fields "asOf")
  let amount ← textWhere isValuationMoney (JsValue.get fields "amount")
  let provenance ← (JsValue.get fields "provenance").asRecord
  let sourceEntry ← readSourceEntry host (JsValue.get provenance "sourceEntry")
  let sourceValuationId ← readSourceValuation host (JsValue.get provenance "sourceValuation")
  if isLiteral "reconciliation" (JsValue.get fields "sourceKind") &&
      isFalse (JsValue.get fields "current") &&
      isLiteral "sure_archive" (JsValue.get provenance "origin") &&
      isFalse (JsValue.get provenance "bankObservationVerified") then
    some { sourceEntryId, externalIdentity, legacyAccountIdentity, currency, observedAt, asOf
           amount, sourceEntry, sourceValuationId }
  else none

/-- The source of the manifest. -/
def readArchiveSource (value : JsValue) : Option ArchiveSource := do
  let fields ← value.asRecord
  let sha256 ← textWhere isSha256 (JsValue.get fields "sha256")
  let observedAt ← textWhere isOffsetTimestamp (JsValue.get fields "observedAt")
  let observationBasis ← observationBasisOf (JsValue.get fields "observationBasis")
  if isLiteral "sure_targeted_json_archive" (JsValue.get fields "kind") then
    some { sha256, observedAt, observationBasis }
  else none

/-- An account of the other program, of which only the id is used. -/
def readSourceAccount (value : JsValue) : Option String := do
  let fields ← value.asRecord
  let id ← textWhere host.isUuid (JsValue.get fields "id")
  if isLiteral "Investment" (JsValue.get fields "accountable_type") then some id else none

/-- The account of the manifest. -/
def readArchiveAccount (value : JsValue) : Option ArchiveAccount := do
  let fields ← value.asRecord
  let legacyIdentity ← (JsValue.get fields "legacyIdentity").asText
  let currency ← textWhere isCurrencyCode (JsValue.get fields "currency")
  let sourceAccountId ← readSourceAccount host (JsValue.get fields "sourceAccount")
  if isLiteral "hapoalim" (JsValue.get fields "sourceProviderLabel") &&
      isNull (JsValue.get fields "currentValuationId") &&
      isFalse (JsValue.get fields "currentBalanceVerified") then
    some { legacyIdentity, currency, sourceAccountId }
  else none

/-- `z.strictObject({lastAttemptAt: z.null(), lastSuccessAt: z.null()})` -/
def neverCollected (value : JsValue) : Bool :=
  value.asRecord.any fun fields =>
    fields.all (fun field => field.1 = "lastAttemptAt" ∨ field.1 = "lastSuccessAt") &&
      isNull (JsValue.get fields "lastAttemptAt") && isNull (JsValue.get fields "lastSuccessAt")

/-- `archiveSchema` -/
def readArchive (value : JsValue) : Option Archive := do
  let fields ← value.asRecord
  let source ← readArchiveSource (JsValue.get fields "source")
  let account ← readArchiveAccount host (JsValue.get fields "account")
  let rows ← (JsValue.get fields "valuations").asArray
  let valuations ← rows.mapM (readArchiveRow host)
  if isOne (JsValue.get fields "archiveManifestVersion") &&
      isLiteral "prepared_for_review_not_imported" (JsValue.get fields "status") &&
      isLiteral "surviving-archive-baseline" (JsValue.get fields "reviewPurpose") &&
      isEmptyArray (JsValue.get fields "activities") && 1 ≤ rows.length && rows.length ≤ 10000 &&
      neverCollected (JsValue.get fields "sourceCollection") then
    some { source, account, valuations }
  else none

/-! ## The snapshot -/

/-- `/^\d+-\d+-\d+:securities$/` -/
def isSecuritiesId (providerProductId : String) : Bool :=
  match providerProductId.toList.splitOn ':' with
  | [selector, kind] => (selectorParts (String.ofList selector)).isSome && kind = "securities".toList
  | _ => false

/-- The row says what its evidence says. -/
def AgreesWithEvidence (archive : Archive) (row : ArchiveRow) : Prop :=
  row.externalIdentity = archiveEntryId row.sourceEntryId ∧
    row.legacyAccountIdentity = "sure:account:" ++ archive.account.sourceAccountId ∧
    row.sourceEntry.id = row.sourceEntryId ∧
    row.sourceEntry.accountId = archive.account.sourceAccountId ∧
    row.sourceEntry.date = row.asOf ∧ row.sourceEntry.amount = row.amount ∧
    row.sourceEntry.currency = row.currency ∧ row.currency = archive.account.currency ∧
    row.sourceEntry.entryableId = row.sourceValuationId ∧
    isoString row.observedAt = isoString archive.source.observedAt

instance (archive : Archive) (row : ArchiveRow) : Decidable (AgreesWithEvidence archive row) :=
  inferInstanceAs (Decidable (_ ∧ _))

/-- The valuation that a row prepares. -/
def archiveValuation (archive : Archive) (productId : String) (row : ArchiveRow) :
    Except SeedError InvestmentValuation :=
  if AgreesWithEvidence archive row then
    .ok {
      id := row.externalIdentity, productId, asOf := some row.asOf, amount := row.amount
      currency := row.currency, observedAt := isoString archive.source.observedAt
      provenance := some {
        sourceEntryId := row.sourceEntryId
        sourceAccountId := archive.account.sourceAccountId
        sourceSha256 := archive.source.sha256
        archiveObservedAt := isoString archive.source.observedAt
        observationBasis := archive.source.observationBasis
        sourceAmount := row.amount } }
  else .error .evidence

/-- The product that the archive is of. -/
def archiveProduct (archive : Archive) (providerProductId productId : String) :
    InvestmentProduct where
  id := productId
  provider := .hapoalim
  providerProductId := providerProductId
  kind := .investment
  name := "Hapoalim Investments"
  currency := archive.account.currency
  currentValuationId := none
  liquidity := ⟨.unknown, none, none⟩
  coverage := ⟨.partially, .unavailable, .unavailable, some .unavailable⟩
  forecast := none
  reportSummaries := none

/-- `prepareHapoalimArchive`: the snapshot of a reviewed manifest. -/
def prepareHapoalimArchive (input : JsValue) (providerProductId : String) :
    Except SeedError InvestmentSnapshot :=
  match (readArchive host input).filter fun _ => isSecuritiesId providerProductId with
  | none => .error .unreviewed
  | some archive => do
      let productId ← (investmentProductId providerProductId .hapoalim).mapError .store
      if archive.account.legacyIdentity ≠ "sure:account:" ++ archive.account.sourceAccountId ∨
          ¬ (archive.valuations.map (·.sourceEntryId)).Nodup ∨
          ¬ (archive.valuations.map (·.asOf)).Nodup then .error .identities
      else
        let valuations ← archive.valuations.mapM (archiveValuation archive productId)
        (parseSnapshot host {
          observedAt := isoString archive.source.observedAt
          complete := true, inventoryComplete := false
          products := [archiveProduct archive providerProductId productId]
          valuations, activities := [], tracks := [], executions := [] }).mapError .store

end

/-! ## The files -/

/-- What `lstat` says of a file. -/
structure FileStat where
  isFile : Bool
  isDirectory : Bool
  isSymbolicLink : Bool
  size : Nat
  uid : Nat
  gid : Nat
  mode : Nat

/-- A file that is read; `raw` is `none` when reading it throws. -/
structure InputFile where
  stat : Option FileStat
  raw : Option (List UInt8)

/-- What the command takes from its host besides `Host`. -/
structure FileHost where
  /-- `createHash('sha256').update(raw).digest('hex')` -/
  sha256 : List UInt8 → String
  /-- `JSON.parse(raw.toString('utf8'))`; `none` when it throws. -/
  parseJson : List UInt8 → Option JsValue
  /-- `JSON.stringify` -/
  stringify : JsValue → Option String

/-- A file, as bytes and as a value. -/
structure PrivateJson where
  raw : List UInt8
  value : JsValue

/-- `readPrivateJson`: only a private file of the user is read. -/
def readPrivateJson (files : FileHost) (file : InputFile) : Except SeedError PrivateJson :=
  match file.stat with
  | none => .error .missingFile
  | some stat =>
      if ¬ stat.isFile ∨ 20 * 1024 * 1024 < stat.size then .error .inputFile
      else match file.raw with
        | none => .error .inputJson
        | some raw => (files.parseJson raw).elim (.error .inputJson) fun value => .ok ⟨raw, value⟩

/-- The user and the group of the process. -/
structure ServiceUser where
  uid : Nat
  gid : Nat

/-- The database and the two files beside it, as far as they exist. -/
def assertHapoalimStoreOwnership (user : ServiceUser) (candidates : List (Option FileStat)) :
    Except SeedError Unit :=
  if candidates.all fun candidate => candidate.all fun stat =>
      stat.isFile && stat.uid = user.uid && stat.gid = user.gid then .ok ()
  else .error .ownership

/-! ## Seeding -/

/-- The options of the command, and what it finds of its files as it goes. -/
structure SeedOptions where
  archive : InputFile
  source : InputFile
  providerProductId : String
  /-- `config.hapoalimInvestments?.staleHours` -/
  staleHours : Option Nat
  /-- `config.companies.hapoalim?.accounts`, if it is an array. -/
  accounts : Option (List String)
  user : ServiceUser
  storeBefore : List (Option FileStat)
  storeAfter : List (Option FileStat)
  storeClosed : List (Option FileStat)
  backupDirectory : FileStat
  /-- The store can be opened, and its backup written. -/
  backs : Bool
  backupExists : Bool
  /-- The clock before and after. -/
  before : Instant
  after : Instant

/-- The export: its one account and its entries. -/
structure SourceExport where
  accountId : String
  entries : List SourceEntry
  deriving DecidableEq, Repr

section
variable (host : Host)

/-- The export, as far as it is used. -/
def readSourceExport (value : JsValue) : Option SourceExport := do
  let fields ← value.asRecord
  let accounts ← (JsValue.get fields "accounts").asArray
  let ids ← accounts.mapM (readSourceAccount host)
  let rows ← (JsValue.get fields "entries").asArray
  let entries ← rows.mapM (readSourceEntry host)
  match ids with
  | [accountId] =>
      if isEmptyArray (JsValue.get fields "transactions") &&
          isEmptyArray (JsValue.get fields "holdings") &&
          isEmptyArray (JsValue.get fields "trades") then some { accountId, entries }
      else none
  | _ => none

/-- `new Map(entries.map(row => [row.id, row])).get(id)` -/
def originalEntry (entries : List SourceEntry) (id : String) : Option SourceEntry :=
  entries.reverse.find? (·.id = id)

/-- The reviewed valuation is an entry of the export. -/
def matchesExport (sourceExport : SourceExport) (row : InvestmentValuation) : Bool :=
  row.provenance.any fun provenance =>
    (originalEntry sourceExport.entries provenance.sourceEntryId).any fun original =>
      original.accountId = sourceExport.accountId &&
        original.accountId = provenance.sourceAccountId && some original.date = row.asOf &&
        original.amount = row.amount && original.currency = row.currency

/-- What the checks let through. -/
structure CheckedSeed where
  snapshot : InvestmentSnapshot
  sourceExport : SourceExport
  evidence : SeedEvidence
  staleHours : Nat

/-- The checks before the store is touched. -/
def checkSeed (files : FileHost) (options : SeedOptions) : Except SeedError CheckedSeed :=
  match options.staleHours, options.accounts with
  | some staleHours, some accounts =>
      if ∀ account ∈ accounts, account ++ ":securities" ≠ options.providerProductId then
        .error .target
      else do
        let manifest ← readPrivateJson files options.archive
        let snapshot ← prepareHapoalimArchive host manifest.value options.providerProductId
        let source ← readPrivateJson files options.source
        let sourceSha256 := files.sha256 source.raw
        if ∃ row ∈ snapshot.valuations,
            row.provenance.map (·.sourceSha256) ≠ some sourceSha256 then .error .sourceHash
        else match readSourceExport host source.value with
          | none => .error .sourceExport
          | some sourceExport =>
              if sourceExport.entries.length ≠ snapshot.valuations.length ∨
                  (sourceExport.entries.map (·.id)).dedup.length ≠ snapshot.valuations.length then
                .error .sourceExport
              else if snapshot.valuations.all (matchesExport sourceExport) then
                return {
                  snapshot, sourceExport, staleHours
                  evidence := ⟨sourceSha256, files.stringify manifest.value⟩ }
              else .error .sourceEntry
  | _, _ => .error .target

/-- What stands between the checks and the writing: the owner of the store, a
private directory for the backup, and the backup itself. -/
def prepareStore (options : SeedOptions) : Except SeedError Unit := do
  assertHapoalimStoreOwnership options.user options.storeBefore
  let directory := options.backupDirectory
  if ¬ directory.isDirectory ∨ directory.isSymbolicLink ∨ directory.mode % 0o100 ≠ 0 ∨
      directory.uid ≠ options.user.uid then .error .backupDirectory
  else if options.backupExists then .error .backupExists
  else if options.backs then .ok ()
  else .error .backup

/-- What the command prints. -/
structure SeedAnswer where
  summary : InvestmentImportSummary
  products : Nat
  valuations : Nat
  sourceStatus : InvestmentStatus
  deriving DecidableEq, Repr

/-- A program of the command. -/
abbrev SeedM := EStateM SeedError (Statements.Session InvestmentDb)

/-- The writing, between two readings of the feed. -/
def seedStore (options : SeedOptions) (seed : CheckedSeed) : SeedM SeedAnswer := do
  let before ← EStateM.adaptExcept .feed (getFeed host .hapoalim options.before seed.staleHours)
  let summary ← EStateM.adaptExcept .store (seedArchive host .hapoalim seed.snapshot seed.evidence)
  let feed ← EStateM.adaptExcept .feed (getFeed host .hapoalim options.after seed.staleHours)
  ensure (if before.source = feed.source then .ok () else .error .freshness)
  ensure (assertHapoalimStoreOwnership options.user options.storeAfter)
  return ⟨summary, feed.products.length, feed.valuations.length, feed.source.status⟩

/-- `try … finally`: the store is closed, and its owner looked at again. -/
def closing (options : SeedOptions) (work : SeedM SeedAnswer) : SeedM SeedAnswer := fun s =>
  match assertHapoalimStoreOwnership options.user options.storeClosed, work s with
  | .ok _, result => result
  | .error e, .ok _ s' => .error e s'
  | .error e, .error _ s' => .error e s'

/-- `seedHapoalimArchive` -/
def seedHapoalimArchive (files : FileHost) (options : SeedOptions) : SeedM SeedAnswer := do
  let seed ← ensure (checkSeed host files options)
  ensure (prepareStore options)
  closing options (seedStore host options seed)

end

/-! ## What a prepared archive says -/

section
variable {host : Host}

variable (host) in
/-- No accepted identifier has white space. -/
def PlainUuids : Prop := ∀ text, host.isUuid text = true → ∀ c ∈ text.toList, isJsSpace c = false

/-- The id of an entry has no white space at its ends. -/
theorem trimmed_archiveEntryId (huuid : PlainUuids host) {id : String}
    (hid : host.isUuid id = true) : jsTrim (archiveEntryId id) = archiveEntryId id := by
  have hmark : ∀ c ∈ "sure:entry:".toList, isJsSpace c = false := forall_char_of_all (by decide)
  refine jsTrim_of_no_space fun c hc => ?_
  unfold archiveEntryId at hc
  rw [String.toList_append, List.mem_append] at hc
  rcases hc with hc | hc
  · exact hmark c hc
  · exact huuid id hid c hc

/-- A text that passed its check. -/
theorem textWhere_eq_some {check : String → Bool} {value : JsValue} {text : String}
    (h : textWhere check value = some text) : check text = true :=
  (Option.filter_eq_some_iff.mp h).2

/-- A row of the manifest names an entry by a UUID, -/
theorem isUuid_of_readArchiveRow {value : JsValue} {row : ArchiveRow}
    (h : readArchiveRow host value = some row) : host.isUuid row.sourceEntryId = true := by
  unfold readArchiveRow at h
  simp only [Option.bind_eq_bind, Option.bind_eq_some_iff, Option.ite_none_right_eq_some] at h
  obtain ⟨fields, -, sourceEntryId, hid, h⟩ := h
  obtain ⟨_, _, _, _, _, _, _, _, _, _, _, _, _, _, _, _, _, _, _, h⟩ := h
  rw [← Option.some.inj h]
  exact textWhere_eq_some hid

/-- and so do all of them. -/
theorem isUuid_of_readArchive {input : JsValue} {archive : Archive}
    (h : readArchive host input = some archive) :
    ∀ row ∈ archive.valuations, host.isUuid row.sourceEntryId = true := by
  unfold readArchive at h
  simp only [Option.bind_eq_bind, Option.bind_eq_some_iff, Option.ite_none_right_eq_some] at h
  obtain ⟨fields, -, _, _, _, _, rows, -, valuations, hrows, -, h⟩ := h
  intro row hrow
  rw [← Option.some.inj h] at hrow
  obtain ⟨value, -, hvalue⟩ := Pairings.exists_of_right (Pairings.of_mapM_some hrows) hrow
  exact isUuid_of_readArchiveRow hvalue

/-- A row of the manifest, and the valuation that is made of it. -/
structure PreparedRow (archive : Archive) (row : ArchiveRow) (value : InvestmentValuation) :
    Prop where
  agrees : AgreesWithEvidence archive row
  id : value.id = jsTrim row.externalIdentity
  asOf : value.asOf = some row.asOf
  amount : value.amount = row.amount
  currency : value.currency = row.currency
  entry : value.provenance.map (·.sourceEntryId) = some row.sourceEntryId
  account : value.provenance.map (·.sourceAccountId) = some archive.account.sourceAccountId

/-- What a prepared valuation has of its row. -/
theorem preparedRow_of_ok {archive : Archive} {productId : String} {row : ArchiveRow}
    {value : InvestmentValuation} (h : archiveValuation archive productId row = .ok value) :
    PreparedRow archive row value.trimmed := by
  unfold archiveValuation at h
  by_cases hagrees : AgreesWithEvidence archive row
  · rw [if_pos hagrees] at h
    cases h
    exact ⟨hagrees, rfl, rfl, rfl, rfl, rfl, rfl⟩
  · rw [if_neg hagrees] at h
    cases h

/-- What a prepared snapshot has of its manifest. -/
theorem prepareHapoalimArchive_ok {input : JsValue} {providerProductId : String}
    {snapshot : InvestmentSnapshot}
    (h : prepareHapoalimArchive host input providerProductId = .ok snapshot) :
    ∃ archive, readArchive host input = some archive ∧
      (archive.valuations.map (·.sourceEntryId)).Nodup ∧
      List.Forall₂ (PreparedRow archive) archive.valuations snapshot.valuations ∧
      snapshot.trimmed = snapshot := by
  unfold prepareHapoalimArchive at h
  cases hread : (readArchive host input).filter fun _ => isSecuritiesId providerProductId with
  | none =>
      rw [hread] at h
      cases h
  | some archive =>
      rw [hread] at h
      obtain ⟨productId, -, h⟩ := except_bind_ok.mp h
      split_ifs at h with hrefused
      rw [not_or, not_or, not_not, not_not] at hrefused
      obtain ⟨values, hvalues, h⟩ := except_bind_ok.mp h
      cases hparse : parseSnapshot host {
          observedAt := isoString archive.source.observedAt
          complete := true, inventoryComplete := false
          products := [archiveProduct archive providerProductId productId]
          valuations := values, activities := [], tracks := [], executions := [] } with
      | error e =>
          rw [hparse] at h
          cases h
      | ok parsed =>
          rw [hparse] at h
          obtain rfl := Except.ok.inj h
          refine ⟨archive, (Option.filter_eq_some_iff.mp hread).1, hrefused.2.1, ?_, ?_⟩
          · rw [(parseSnapshot_ok hparse).1]
            exact List.forall₂_map_right_iff.mpr
              ((Pairings.of_mapM_ok hvalues).imp fun _ _ hvalue => preparedRow_of_ok hvalue)
          · rw [(parseSnapshot_ok hparse).1]
            exact trimmed_trimmed_snapshot _

/-! ## One valuation for each entry -/

/-- The entry is the evidence of the valuation. -/
structure Evidences (entry : SourceEntry) (row : InvestmentValuation) : Prop where
  id : row.id = archiveEntryId entry.id
  sourceEntry : row.provenance.map (·.sourceEntryId) = some entry.id
  account : row.provenance.map (·.sourceAccountId) = some entry.accountId
  date : row.asOf = some entry.date
  amount : row.amount = entry.amount
  currency : row.currency = entry.currency

/-- The entry that an id finds. -/
theorem originalEntry_some {entries : List SourceEntry} {id : String} {entry : SourceEntry}
    (h : originalEntry entries id = some entry) : entry ∈ entries ∧ entry.id = id :=
  ⟨List.mem_reverse.mp (List.mem_of_find?_eq_some h), by simpa using List.find?_some h⟩

/-- A valuation that the checks let through has its evidence in the export. -/
theorem evidence_of_matches {sourceExport : SourceExport} {archive : Archive} {row : ArchiveRow}
    {value : InvestmentValuation} (huuid : PlainUuids host)
    (hrow : host.isUuid row.sourceEntryId = true) (hprepared : PreparedRow archive row value)
    (hmatches : matchesExport sourceExport value = true) :
    ∃ entry ∈ sourceExport.entries, Evidences entry value := by
  have hentry := hprepared.entry
  unfold matchesExport at hmatches
  obtain ⟨provenance, hprovenance, hmatches⟩ := (Option.any_eq_true _ _).mp hmatches
  obtain ⟨original, horiginal, hmatches⟩ := (Option.any_eq_true _ _).mp hmatches
  simp only [Bool.and_eq_true, decide_eq_true_eq] at hmatches
  obtain ⟨⟨⟨⟨-, haccount⟩, hdate⟩, hamount⟩, hcurrency⟩ := hmatches
  rw [hprovenance] at hentry
  obtain ⟨hmem, hid⟩ := originalEntry_some horiginal
  have hsourceEntry : original.id = row.sourceEntryId := hid.trans (Option.some.inj hentry)
  refine ⟨original, hmem, ?_, ?_, ?_, hdate.symm, hamount.symm, hcurrency.symm⟩
  · rw [hprepared.id, hprepared.agrees.1, trimmed_archiveEntryId huuid hrow, hsourceEntry]
  · rw [hprovenance, hid]
    rfl
  · rw [hprovenance, haccount]
    rfl

/-- What a seed that passed its checks was read from. -/
structure SeedRead (host : Host) (files : FileHost) (options : SeedOptions) (seed : CheckedSeed)
    (source : PrivateJson) : Prop where
  file : readPrivateJson files options.source = .ok source
  sourceExport : readSourceExport host source.value = some seed.sourceExport
  hash : seed.evidence.sourceSha256 = files.sha256 source.raw
  hashes : ∀ row ∈ seed.snapshot.valuations,
    row.provenance.map (·.sourceSha256) = some (files.sha256 source.raw)
  prepared : ∃ manifest, prepareHapoalimArchive host manifest options.providerProductId =
    .ok seed.snapshot
  count : seed.sourceExport.entries.length = seed.snapshot.valuations.length
  distinct : (seed.sourceExport.entries.map (·.id)).Nodup
  compared : ∀ row ∈ seed.snapshot.valuations, matchesExport seed.sourceExport row = true

/-- **What was checked** before anything is written. -/
theorem checkSeed_ok {files : FileHost} {options : SeedOptions} {seed : CheckedSeed}
    (h : checkSeed host files options = .ok seed) :
    ∃ source, SeedRead host files options seed source := by
  unfold checkSeed at h
  cases hstale : options.staleHours with
  | none =>
      rw [hstale] at h
      cases h
  | some staleHours =>
      cases haccounts : options.accounts with
      | none =>
          rw [hstale, haccounts] at h
          cases h
      | some accounts =>
          rw [hstale, haccounts] at h
          dsimp only at h
          split_ifs at h with htarget
          obtain ⟨manifest, -, h⟩ := except_bind_ok.mp h
          obtain ⟨snapshot, hprepared, h⟩ := except_bind_ok.mp h
          obtain ⟨source, hsource, h⟩ := except_bind_ok.mp h
          by_cases hhash : ∃ row ∈ snapshot.valuations,
              row.provenance.map (·.sourceSha256) ≠ some (files.sha256 source.raw)
          · rw [if_pos hhash] at h
            cases h
          rw [if_neg hhash] at h
          cases hexport : readSourceExport host source.value with
          | none =>
              rw [hexport] at h
              cases h
          | some sourceExport =>
              rw [hexport] at h
              dsimp only at h
              split_ifs at h with hcount hcompared
              cases h
              rw [not_or, not_not, not_not] at hcount
              push Not at hhash
              refine ⟨source, hsource, hexport, rfl, hhash, ⟨manifest.value, hprepared⟩, hcount.1,
                Pairings.nodup_of_dedup_length ?_, List.all_eq_true.mp hcompared⟩
              rw [hcount.2, List.length_map, hcount.1]

/-- What passes the checks. -/
theorem checkSeed_of_read {files : FileHost} {options : SeedOptions} {manifest source : PrivateJson}
    {snapshot : InvestmentSnapshot} {sourceExport : SourceExport} {staleHours : Nat}
    {accounts : List String} (hstale : options.staleHours = some staleHours)
    (haccounts : options.accounts = some accounts)
    (htarget : ∃ account ∈ accounts, account ++ ":securities" = options.providerProductId)
    (hmanifest : readPrivateJson files options.archive = .ok manifest)
    (hprepared : prepareHapoalimArchive host manifest.value options.providerProductId =
      .ok snapshot)
    (hsource : readPrivateJson files options.source = .ok source)
    (hhash : ∀ row ∈ snapshot.valuations,
      row.provenance.map (·.sourceSha256) = some (files.sha256 source.raw))
    (hexport : readSourceExport host source.value = some sourceExport)
    (hcount : sourceExport.entries.length = snapshot.valuations.length)
    (hdistinct : (sourceExport.entries.map (·.id)).dedup.length = snapshot.valuations.length)
    (hcompared : snapshot.valuations.all (matchesExport sourceExport) = true) :
    checkSeed host files options = .ok ⟨snapshot, sourceExport,
      ⟨files.sha256 source.raw, files.stringify manifest.value⟩, staleHours⟩ := by
  have hnone : ¬ ∀ account ∈ accounts, account ++ ":securities" ≠ options.providerProductId := by
    intro hall
    obtain ⟨account, haccount, heq⟩ := htarget
    exact hall account haccount heq
  have hsame : ¬ ∃ row ∈ snapshot.valuations,
      row.provenance.map (·.sourceSha256) ≠ some (files.sha256 source.raw) := by
    rintro ⟨row, hrow, hne⟩
    exact hne (hhash row hrow)
  unfold checkSeed
  rw [hstale, haccounts]
  dsimp only
  rw [if_neg hnone]
  refine except_bind_ok.mpr ⟨manifest, hmanifest, except_bind_ok.mpr ⟨snapshot, hprepared,
    except_bind_ok.mpr ⟨source, hsource, ?_⟩⟩⟩
  rw [if_neg hsame, hexport]
  dsimp only
  rw [if_neg (by rw [hcount, hdistinct]; simp only [ne_eq, not_true_eq_false, or_self,
    not_false_eq_true]), if_pos hcompared]
  rfl

/-- **One valuation for each entry**, and one entry for each valuation. -/
theorem SeedRead.oneToOne {files : FileHost} {options : SeedOptions} {seed : CheckedSeed}
    {source : PrivateJson} (h : SeedRead host files options seed source)
    (huuid : PlainUuids host) :
    Pairings.OneToOne Evidences seed.sourceExport.entries seed.snapshot.valuations := by
  obtain ⟨manifest, hprepared⟩ := h.prepared
  obtain ⟨archive, hread, hnodup, hrows, -⟩ := prepareHapoalimArchive_ok hprepared
  have hkeys : archive.valuations.map (some ·.sourceEntryId) =
      seed.snapshot.valuations.map fun row => row.provenance.map (·.sourceEntryId) :=
    Pairings.map_eq hrows fun _ _ hrow => hrow.entry.symm
  have hsome : ∀ {α : Type} {f : α → String} {items : List α}, (items.map f).Nodup →
      (items.map (some ∘ f)).Nodup := by
    intro α f items hitems
    rw [← List.map_map]
    exact hitems.map (Option.some_injective _)
  refine Pairings.oneToOne_of_keys (fun entry row hentry => hentry.sourceEntry.symm)
    (hsome h.distinct) ?_ h.count.le ?_
  · rw [← hkeys]
    exact hsome hnodup
  · intro row hrow
    obtain ⟨archived, harchived, hprepared⟩ := Pairings.exists_of_right hrows hrow
    exact evidence_of_matches huuid (isUuid_of_readArchive hread archived harchived) hprepared
      (h.compared row hrow)

end

/-! ## What is stored -/

section
variable {host : Host} {files : FileHost} {options : SeedOptions} {seed : CheckedSeed}

/-- The checked snapshot was written. -/
def WritesSeed (host : Host) (seed : CheckedSeed) (db db' : InvestmentDb) : Prop :=
  ∃ summary, seeded host .hapoalim seed.snapshot seed.evidence db = .ok (summary, db')

/-- The store is written once, or not at all. -/
theorem writesOnce_seedStore :
    WritesOnce (WritesSeed host seed) (seedStore host options seed) := by
  have hfeed : ∀ now, ReadOnly (EStateM.adaptExcept SeedError.feed
      (getFeed host .hapoalim now seed.staleHours)) :=
    fun now => (readOnly_getFeed host .hapoalim now seed.staleHours).adaptExcept _
  have hwrite : WritesOnce (WritesSeed host seed) (EStateM.adaptExcept SeedError.store
      (seedArchive host .hapoalim seed.snapshot seed.evidence)) :=
    ((computes_seedArchive host .hapoalim seed.snapshot seed.evidence).writesOnce
      (atomic_seedArchive host .hapoalim seed.snapshot seed.evidence)).adaptExcept _
  refine WritesOnce.after (hfeed _) fun before => hwrite.before fun summary => ?_
  refine (hfeed _).bind fun feed => ?_
  exact (readOnly_ensure _).bind fun _ => (readOnly_ensure _).bind fun _ => readOnly_pure _

/-- Closing it writes nothing. -/
theorem writesOnce_closing {P : InvestmentDb → InvestmentDb → Prop} {work : SeedM SeedAnswer}
    (h : WritesOnce P work) : WritesOnce P (closing options work) where
  returned := by
    intro s answer s' hrun
    unfold closing at hrun
    split at hrun
    · exact h.returned s answer s' hrun
    · cases hrun
    · cases hrun
  threw := by
    intro s e s' hrun
    unfold closing at hrun
    split at hrun
    · exact h.threw s e s' hrun
    · rename_i hwork
      cases hrun
      exact .inr (h.returned s _ s' hwork)
    · rename_i hwork
      cases hrun
      exact h.threw s _ s' hwork

/-- So the command writes once, or not at all. -/
theorem writesOnce_seedHapoalimArchive (hchecked : checkSeed host files options = .ok seed) :
    WritesOnce (WritesSeed host seed) (seedHapoalimArchive host files options) := by
  have hseed : seedHapoalimArchive host files options =
      (ensure (prepareStore options) >>= fun _ => closing options (seedStore host options seed)) := by
    funext s
    unfold seedHapoalimArchive
    rw [hchecked]
    exact bind_of_ok rfl
  rw [hseed]
  exact WritesOnce.after (readOnly_ensure _) fun _ => writesOnce_closing writesOnce_seedStore

/-- A valuation found where an archived one belongs says the same. -/
theorem evidences_stored {entry : SourceEntry} {row : InvestmentValuation} {db : InvestmentDb}
    (hentry : Evidences entry row) (h : AgreesStored .hapoalim db (.valuation row)) :
    ∃ old, .valuation old ∈ db.records.rows ∧ Evidences entry old := by
  obtain ⟨old, hfound, houtcome⟩ := h
  have hkind := KeyedTable.key_of_find hfound
  cases old with
  | valuation old =>
      refine ⟨old, KeyedTable.mem_iff_find.mpr ?_, ?_⟩
      · rw [hkind]
        exact hfound
      · change (if InvestmentRecord.valuation { old with observedAt := "" } ≠
          .valuation { row with observedAt := "" } then
            Except.error InvestmentError.archiveValuationConflict else _) = _ at houtcome
        split_ifs at houtcome with hconflict
        rw [not_not] at hconflict
        obtain ⟨hid, -, hasOf, -, hamount, hcurrency, hprovenance⟩ :=
          InvestmentValuation.mk.inj (InvestmentRecord.valuation.inj hconflict)
        exact ⟨hid.trans hentry.id, hprovenance ▸ hentry.sourceEntry,
          hprovenance ▸ hentry.account, hasOf.trans hentry.date, hamount.trans hentry.amount,
          hcurrency.trans hentry.currency⟩
  | _ => cases (Prod.mk.inj hkind).1

/-- For every entry a valuation is stored, and no other valuation was added. -/
structure StoresEntries (entries : List SourceEntry) (db db' : InvestmentDb) : Prop where
  stored : ∀ entry ∈ entries, ∃ row, .valuation row ∈ db'.records.rows ∧ Evidences entry row
  only : ∀ row, .valuation row ∈ db'.records.rows →
    .valuation row ∈ db.records.rows ∨ ∃ entry ∈ entries, Evidences entry row

/-- What is written stores each entry. -/
theorem storesEntries_of_writes {entries : List SourceEntry} {db db' : InvestmentDb}
    (htrimmed : seed.snapshot.trimmed = seed.snapshot)
    (hpairs : Pairings.OneToOne Evidences entries seed.snapshot.valuations)
    (h : WritesSeed host seed db db') : StoresEntries entries db db' := by
  obtain ⟨summary, hseeded⟩ := h
  obtain ⟨snapshot, stored, hchecked, -, -, hrecords⟩ := seeded_ok.mp hseeded
  obtain ⟨-, hagrees⟩ := (seeded_appends hseeded).2 snapshot stored hchecked
  obtain rfl : snapshot = seed.snapshot := (checkArchive_ok hchecked).1.trans htrimmed
  constructor
  · intro entry hmem
    obtain ⟨row, ⟨hrow, hentry⟩, -⟩ := hpairs.ofLeft entry hmem
    refine evidences_stored hentry (hagrees _ ?_)
    exact List.mem_append_right _ (List.mem_map_of_mem hrow)
  · intro row hrow
    rcases seeded_mem hrecords hrow with hold | ⟨product, -, hsame⟩ | ⟨value, hvalue, hsame⟩
    · exact .inl hold
    · cases hsame
    · obtain ⟨entry, ⟨hentry, hsays⟩, -⟩ := hpairs.ofRight value hvalue
      cases hsame
      exact .inr ⟨entry, hentry, hsays⟩

end

section
variable {host : Host} {files : FileHost} {options : SeedOptions} {seed : CheckedSeed}

/-- A file that was read has the bytes and the value. -/
theorem readPrivateJson_ok {file : InputFile} {source : PrivateJson}
    (h : readPrivateJson files file = .ok source) :
    file.raw = some source.raw ∧ files.parseJson source.raw = some source.value := by
  unfold readPrivateJson at h
  cases hstat : file.stat with
  | none =>
      rw [hstat] at h
      cases h
  | some stat =>
      rw [hstat] at h
      dsimp only at h
      split_ifs at h
      cases hraw : file.raw with
      | none =>
          rw [hraw] at h
          cases h
      | some raw =>
          rw [hraw] at h
          dsimp only at h
          cases hparse : files.parseJson raw with
          | none =>
              rw [hparse] at h
              cases h
          | some value =>
              rw [hparse] at h
              cases h
              exact ⟨rfl, hparse⟩

/-- A reviewed archive has a valuation. -/
theorem SeedRead.nonempty {source : PrivateJson} (h : SeedRead host files options seed source) :
    ∃ row, row ∈ seed.snapshot.valuations := by
  obtain ⟨manifest, hprepared⟩ := h.prepared
  obtain ⟨archive, hread, -, hrows, -⟩ := prepareHapoalimArchive_ok hprepared
  unfold readArchive at hread
  simp only [Option.bind_eq_bind, Option.bind_eq_some_iff, Option.ite_none_right_eq_some,
    Bool.and_eq_true, decide_eq_true_eq] at hread
  obtain ⟨fields, -, _, _, _, _, rows, -, valuations, hvaluations, hshape, hread⟩ := hread
  have hlength := (Pairings.of_mapM_some hvaluations).length_eq
  have hsame : valuations.length = seed.snapshot.valuations.length := by
    rw [← hrows.length_eq, ← Option.some.inj hread]
  have hpos : 0 < seed.snapshot.valuations.length := by
    have hleast := hshape.1.1.2
    omega
  exact ⟨seed.snapshot.valuations.get ⟨0, hpos⟩, List.get_mem _ _⟩

end

/-- **Archive evidence is a bijection.**  Let the valuations of a checked seed
carry the hash of the reviewed bytes, and let no other bytes have it.  Then
these bytes are an export whose entries are in one-to-one correspondence with
the valuations.  A seed that returns has stored a valuation for each entry and
added no other; one that throws has done the same, or nothing. -/
theorem archive_bijection (host : Host) (files : FileHost) (options : SeedOptions)
    (reviewed : List UInt8) {seed : CheckedSeed} (huuid : PlainUuids host)
    (hchecked : checkSeed host files options = .ok seed)
    (hreviewed : ∀ row ∈ seed.snapshot.valuations,
      row.provenance.map (·.sourceSha256) = some (files.sha256 reviewed))
    (hfree : ∀ raw, options.source.raw = some raw → files.sha256 raw = files.sha256 reviewed →
      raw = reviewed) :
    ∃ value sourceExport, files.parseJson reviewed = some value ∧
      readSourceExport host value = some sourceExport ∧
      Pairings.OneToOne Evidences sourceExport.entries seed.snapshot.valuations ∧
      (∀ s answer s', seedHapoalimArchive host files options s = .ok answer s' →
        StoresEntries sourceExport.entries s.store s'.store) ∧
      ∀ s e s', seedHapoalimArchive host files options s = .error e s' →
        s'.store = s.store ∨ StoresEntries sourceExport.entries s.store s'.store := by
  obtain ⟨source, hread⟩ := checkSeed_ok hchecked
  obtain ⟨hraw, hparse⟩ := readPrivateJson_ok hread.file
  obtain ⟨row, hrow⟩ := hread.nonempty
  have hsame : source.raw = reviewed := by
    refine hfree source.raw hraw ?_
    exact Option.some.inj ((hread.hashes row hrow).symm.trans (hreviewed row hrow))
  obtain ⟨manifest, hprepared⟩ := hread.prepared
  obtain ⟨-, -, -, -, htrimmed⟩ := prepareHapoalimArchive_ok hprepared
  have hpairs := hread.oneToOne huuid
  have hwrites := writesOnce_seedHapoalimArchive hchecked
  refine ⟨source.value, seed.sourceExport, hsame ▸ hparse, hread.sourceExport, hpairs, ?_, ?_⟩
  · intro s answer s' hrun
    exact storesEntries_of_writes htrimmed hpairs (hwrites.returned s answer s' hrun)
  · intro s e s' hrun
    rcases hwrites.threw s e s' hrun with hkept | hwritten
    · exact .inl hkept
    · exact .inr (storesEntries_of_writes htrimmed hpairs hwritten)

/-! ## An archive of two entries -/

namespace Json

mutual
/-- The value that a JSON text denotes. -/
def value : Json → JsValue
  | .null => .null
  | .bool b => .bool b
  | .num x => .number (some x)
  | .str text => .string text
  | .arr items => .array (values items)
  | .obj fields => .object (fieldValues fields)

/-- The items of an array. -/
def values : List Json → List JsValue
  | [] => []
  | item :: items => item.value :: values items

/-- The members of an object. -/
def fieldValues : List (String × Json) → List (String × JsValue)
  | [] => []
  | (key, item) :: fields => (key, item.value) :: fieldValues fields
end

end Json

/-- An entry of the export: its id, its valuation's, its date and its amount. -/
def exampleEntry (id valuation date amount : String) : Json := .obj [
  ("id", .str id), ("account_id", .str "11111111-1111-4111-8111-111111111111"),
  ("entryable_id", .str valuation), ("entryable_type", .str "Valuation"), ("date", .str date),
  ("amount", .str amount), ("currency", .str "ILS"), ("excluded", .bool false)]

/-- The valuation of the manifest that was made of the entry. -/
def exampleValuation (id valuation date amount : String) : Json := .obj [
  ("sourceEntryId", .str id), ("externalIdentity", .str ("sure:entry:" ++ id)),
  ("legacyAccountIdentity", .str "sure:account:11111111-1111-4111-8111-111111111111"),
  ("currency", .str "ILS"), ("observedAt", .str "2026-09-10T09:00:00Z"), ("asOf", .str date),
  ("amount", .str amount), ("sourceKind", .str "reconciliation"), ("current", .bool false),
  ("provenance", .obj [
    ("origin", .str "sure_archive"), ("bankObservationVerified", .bool false),
    ("sourceEntry", exampleEntry id valuation date amount),
    ("sourceValuation", .obj [("id", .str valuation), ("kind", .str "reconciliation")])])]

/-- Of two entries, one in April and one in May. -/
def exampleRows (row : String → String → String → String → Json) : List Json := [
  row "22222222-2222-4222-8222-222222222222" "33333333-3333-4333-8333-333333333333" "2026-04-02"
    "1234.5678",
  row "44444444-4444-4444-8444-444444444444" "55555555-5555-4555-8555-555555555555" "2026-05-02"
    "1301.25"]

/-- The account of the export. -/
def exampleAccount : Json := .obj [
  ("id", .str "11111111-1111-4111-8111-111111111111"), ("accountable_type", .str "Investment")]

/-- The export, with two entries. -/
def exampleExport : Json := .obj [
  ("accounts", .arr [exampleAccount]), ("entries", .arr (exampleRows exampleEntry)),
  ("transactions", .arr []), ("holdings", .arr []), ("trades", .arr [])]

/-- The digest of the export. -/
def exampleDigest : String :=
  "1b4d6216fce67d34486c1cc9355129f1261953e19aad9ac9573b150537ca601f"

/-- The manifest that a reviewer has prepared. -/
def exampleManifest : Json := .obj [
  ("archiveManifestVersion", .num 1), ("status", .str "prepared_for_review_not_imported"),
  ("reviewPurpose", .str "surviving-archive-baseline"),
  ("source", .obj [
    ("kind", .str "sure_targeted_json_archive"), ("sha256", .str exampleDigest),
    ("observedAt", .str "2026-09-10T11:00:00+02:00"), ("observationBasis", .str "archive_read")]),
  ("account", .obj [
    ("legacyIdentity", .str "sure:account:11111111-1111-4111-8111-111111111111"),
    ("sourceProviderLabel", .str "hapoalim"), ("currency", .str "ILS"),
    ("sourceAccount", exampleAccount), ("currentValuationId", .null),
    ("currentBalanceVerified", .bool false)]),
  ("activities", .arr []), ("valuations", .arr (exampleRows exampleValuation)),
  ("sourceCollection", .obj [("lastAttemptAt", .null), ("lastSuccessAt", .null)])]

/-- The bytes of an ASCII text. -/
def Json.bytes (json : Json) : List UInt8 :=
  (json.stringify asciiHost).map fun c => UInt8.ofNat c.toNat

/-- A host that knows the UUIDs of the example. -/
def exampleArchiveHost : Host :=
  { asciiHost with
    isUuid := fun text => text ∈ ["11111111-1111-4111-8111-111111111111",
      "22222222-2222-4222-8222-222222222222", "33333333-3333-4333-8333-333333333333",
      "44444444-4444-4444-8444-444444444444", "55555555-5555-4555-8555-555555555555"] }

/-- It knows the digest and the JSON of the two files. -/
def exampleFiles : FileHost where
  sha256 raw := if raw = exampleExport.bytes then exampleDigest else ""
  parseJson raw := [exampleManifest, exampleExport].findSome? fun json =>
    if raw = json.bytes then some json.value else none
  stringify _ := some (String.ofList (exampleManifest.stringify asciiHost))

/-- A private file of the user. -/
def examplePrivateFile (json : Json) (size : Nat) : InputFile where
  stat := some ⟨true, false, false, size, 1000, 1000, 0o100600⟩
  raw := some json.bytes

/-- The command on the two files. -/
def exampleSeedOptions : SeedOptions where
  archive := examplePrivateFile exampleManifest 2229
  source := examplePrivateFile exampleExport 658
  providerProductId := "00-000-000001:securities"
  staleHours := some 30
  accounts := some ["00-000-000001"]
  user := ⟨1000, 1000⟩
  storeBefore := []
  storeAfter := []
  storeClosed := []
  backupDirectory := ⟨false, true, false, 4096, 1000, 1000, 0o40700⟩
  backs := true
  backupExists := false
  before := 1789034400000
  after := 1789034400000

/-- The UUIDs have no white space. -/
theorem plainUuids_example : PlainUuids exampleArchiveHost := by
  intro text htext
  have hmem := of_decide_eq_true htext
  simp only [List.mem_cons, List.not_mem_nil, or_false] at hmem
  rcases hmem with rfl | rfl | rfl | rfl | rfl
  · exact forall_char_of_all (by decide)
  · exact forall_char_of_all (by decide)
  · exact forall_char_of_all (by decide)
  · exact forall_char_of_all (by decide)
  · exact forall_char_of_all (by decide)

/-- A file that parses is read. -/
theorem readPrivateJson_example {json : Json} {size : Nat} (hsize : size ≤ 20 * 1024 * 1024)
    (hparse : exampleFiles.parseJson json.bytes = some json.value) :
    readPrivateJson exampleFiles (examplePrivateFile json size) = .ok ⟨json.bytes, json.value⟩ := by
  unfold readPrivateJson examplePrivateFile
  dsimp only
  have haccepted : ¬ (¬ true = true ∨ 20 * 1024 * 1024 < size) := by
    rintro (h | h)
    · exact h rfl
    · omega
  rw [if_neg haccepted, hparse]
  rfl

/-- The two files by their bytes. -/
theorem parseJson_exampleFiles (raw : List UInt8) : exampleFiles.parseJson raw =
    [exampleManifest, exampleExport].findSome? fun json =>
      if raw = json.bytes then some json.value else none := rfl

/-- The digest of the export by its bytes. -/
theorem sha256_exampleFiles (raw : List UInt8) : exampleFiles.sha256 raw =
    if raw = exampleExport.bytes then exampleDigest else "" := rfl

/-- The first of two texts is read first, -/
theorem findSome_first {raw : List UInt8} {first second : Json} (h : raw = first.bytes) :
    ([first, second].findSome? fun json => if raw = json.bytes then some json.value else none) =
      some first.value := by
  rw [List.findSome?_cons, if_pos h]

/-- and the second when it is not the first. -/
theorem findSome_second {raw : List UInt8} {first second : Json} (hfirst : raw ≠ first.bytes)
    (h : raw = second.bytes) :
    ([first, second].findSome? fun json => if raw = json.bytes then some json.value else none) =
      some second.value := by
  rw [List.findSome?_cons, if_neg hfirst, List.findSome?_cons, if_pos h]

/-- The manifest is read, -/
theorem readManifest_example : readPrivateJson exampleFiles exampleSeedOptions.archive =
    .ok ⟨exampleManifest.bytes, exampleManifest.value⟩ :=
  readPrivateJson_example (by decide) ((parseJson_exampleFiles _).trans (findSome_first rfl))

/-- and so is the export. -/
theorem readExport_example : readPrivateJson exampleFiles exampleSeedOptions.source =
    .ok ⟨exampleExport.bytes, exampleExport.value⟩ :=
  readPrivateJson_example (by decide)
    ((parseJson_exampleFiles _).trans (findSome_second (by decide +kernel) rfl))

/-- What the two files have in common. -/
theorem prepared_example :
    (prepareHapoalimArchive exampleArchiveHost exampleManifest.value
      exampleSeedOptions.providerProductId).toOption.any (fun snapshot =>
        (readSourceExport exampleArchiveHost exampleExport.value).any fun sourceExport =>
          snapshot.valuations.all (fun row =>
            row.provenance.map (·.sourceSha256) = some exampleDigest) &&
          snapshot.valuations.length = 2 && sourceExport.entries.length = 2 &&
          (sourceExport.entries.map (·.id)).dedup.length = 2 &&
          snapshot.valuations.all (matchesExport sourceExport)) = true := by
  decide +kernel

/-- Each of the two entries is stored as one valuation. -/
theorem archive_bijection_example :
    ∃ seed, checkSeed exampleArchiveHost exampleFiles exampleSeedOptions = .ok seed ∧
      ∃ value sourceExport, exampleFiles.parseJson exampleExport.bytes = some value ∧
        readSourceExport exampleArchiveHost value = some sourceExport ∧
        Pairings.OneToOne Evidences sourceExport.entries seed.snapshot.valuations ∧
        (∀ s answer s',
          seedHapoalimArchive exampleArchiveHost exampleFiles exampleSeedOptions s = .ok answer s' →
            StoresEntries sourceExport.entries s.store s'.store) ∧
        ∀ s e s',
          seedHapoalimArchive exampleArchiveHost exampleFiles exampleSeedOptions s = .error e s' →
            s'.store = s.store ∨ StoresEntries sourceExport.entries s.store s'.store := by
  have hdigest : exampleFiles.sha256 exampleExport.bytes = exampleDigest := by
    rw [sha256_exampleFiles, if_pos rfl]
  obtain ⟨snapshot, hprepared, h⟩ := exists_ok_of_any prepared_example
  obtain ⟨sourceExport, hexport, h⟩ := (Option.any_eq_true _ _).mp h
  simp only [Bool.and_eq_true, decide_eq_true_eq, List.all_eq_true] at h
  obtain ⟨⟨⟨⟨hhash, hvaluations⟩, hentries⟩, hdistinct⟩, hcompared⟩ := h
  have htarget : ∃ account ∈ ["00-000-000001"],
      account ++ ":securities" = exampleSeedOptions.providerProductId :=
    ⟨"00-000-000001", List.mem_singleton_self _, by decide +kernel⟩
  have hchecked := @checkSeed_of_read exampleArchiveHost exampleFiles exampleSeedOptions
    ⟨exampleManifest.bytes, exampleManifest.value⟩ ⟨exampleExport.bytes, exampleExport.value⟩
    snapshot sourceExport 30 ["00-000-000001"] rfl rfl htarget readManifest_example hprepared
    readExport_example (fun row hrow => by rw [hhash row hrow, hdigest]) hexport
    (hentries.trans hvaluations.symm) (hdistinct.trans hvaluations.symm)
    (List.all_eq_true.mpr hcompared)
  refine ⟨_, hchecked, archive_bijection exampleArchiveHost exampleFiles exampleSeedOptions
    exampleExport.bytes plainUuids_example hchecked ?_ ?_⟩
  · intro row hrow
    rw [hhash row hrow, hdigest]
  · intro raw hfile _
    exact (Option.some.inj hfile).symm

end SimplefinBridge
