import SimplefinBridge.Consumers
import SimplefinBridge.Payload

/-!
# The health report

`GET /healthz` and the error list of the accounts feed judge the same companies
from the same source states, one as healthy or not and the other with warnings
for its clients.  They agree at every instant and on every ledger
(`health_agrees_with_feed`); the report beyond that says nothing of the bank
records but how many accounts there are.
-/

namespace SimplefinBridge

/-! ## The report -/

structure CompanyHealth where
  company : CompanyId
  enabled : Bool
  healthy : Bool
  parked : Bool
  lastSuccessAt : Option Instant
  lastErrorType : Option ScrapeErrorType
  staleHours : Nat
  accounts : Nat
  deriving DecidableEq, Repr

structure ConsumerHealth where
  label : String
  lastSeenAt : Option Instant
  claimed : Bool
  deriving DecidableEq, Repr

structure HealthReport where
  ok : Bool
  checkedAt : Instant
  companies : List CompanyHealth
  consumers : List ConsumerHealth
  idSchemeVersion : ℚ
  deriving DecidableEq

def withinHours (timestamp : Option Instant) (hours : Nat) (now : Instant) : Bool :=
  timestamp.any fun last => now - last ≤ hours * 3600000

section
variable (host : Host) (config : Config) (now : Instant)

def companyHealth (company : CompanyId) (companyConfig : CompanyConfig) (ledger : Ledger) :
    CompanyHealth :=
  let state := ledger.sourceStates.find company
  let parked := state.any (·.parked)
  { company
    enabled := companyConfig.enabled
    healthy := companyConfig.enabled && !parked &&
      withinHours (state.bind (·.lastSuccessAt)) config.staleHours now
    parked
    lastSuccessAt := state.bind (·.lastSuccessAt)
    lastErrorType := state.bind (·.lastErrorType)
    staleHours := config.staleHours
    accounts := (listAccounts company ledger).length }

/-- The scheme version that the ledger file carries, where it is one. -/
def reportedIdScheme (storedIdScheme : Option String) : ℚ :=
  ((storedIdScheme.bind host.number).filter isSafeInteger).getD idSchemeVersion

def buildHealthReport (ledger : Ledger) (consumers : ConsumerTable)
    (storedIdScheme : Option String) : HealthReport :=
  let companies := config.companies.map fun entry =>
    companyHealth config now entry.1 entry.2 ledger
  let enabled := companies.filter (·.enabled)
  { ok := enabled.length > 0 && enabled.all (·.healthy)
    checkedAt := now
    companies
    consumers := (consumers.rows.filter fun c => c.revokedAt.isNone).map fun c =>
      ⟨c.label, c.lastSeenAt, c.claimCount > 0⟩
    idSchemeVersion := reportedIdScheme host storedIdScheme }

end

/-! ## What the report shows of a ledger -/

/-- The part of a source state that the report shows. -/
def SourceState.shown (state : SourceState) : Bool × Option Instant × Option ScrapeErrorType :=
  (state.parked, state.lastSuccessAt, state.lastErrorType)

/-- Two ledgers that no report tells apart. -/
def SameHealth (ledger ledger' : Ledger) : Prop :=
  ∀ company, (ledger.sourceStates.find company).map SourceState.shown =
      (ledger'.sourceStates.find company).map SourceState.shown ∧
    (listAccounts company ledger).length = (listAccounts company ledger').length

section
variable {host : Host} {config : Config} {now : Instant} {ledger ledger' : Ledger}

theorem companyHealth_congr (h : SameHealth ledger ledger') (company : CompanyId)
    (companyConfig : CompanyConfig) :
    companyHealth config now company companyConfig ledger =
      companyHealth config now company companyConfig ledger' := by
  obtain ⟨hstate, hcount⟩ := h company
  unfold companyHealth
  dsimp only
  rw [hcount]
  cases hleft : ledger.sourceStates.find company with
  | none =>
      cases hright : ledger'.sourceStates.find company with
      | none => rfl
      | some right =>
          rw [hleft, hright] at hstate
          cases hstate
  | some left =>
      cases hright : ledger'.sourceStates.find company with
      | none =>
          rw [hleft, hright] at hstate
          cases hstate
      | some right =>
          rw [hleft, hright] at hstate
          obtain ⟨hparked, hrest⟩ := Prod.mk.inj (Option.some.inj hstate)
          obtain ⟨hsuccess, herror⟩ := Prod.mk.inj hrest
          dsimp only [Option.any_some, Option.bind_some]
          rw [hparked, hsuccess, herror]

theorem buildHealthReport_congr (h : SameHealth ledger ledger') (consumers : ConsumerTable)
    (storedIdScheme : Option String) :
    buildHealthReport host config now ledger consumers storedIdScheme =
      buildHealthReport host config now ledger' consumers storedIdScheme := by
  have hcompanies : (config.companies.map fun entry =>
      companyHealth config now entry.1 entry.2 ledger) =
      config.companies.map fun entry => companyHealth config now entry.1 entry.2 ledger' :=
    List.map_congr_left fun entry _ => companyHealth_congr h entry.1 entry.2
  unfold buildHealthReport
  rw [hcompanies]

end

/-! ## The report and the feed -/

/-- What the report and the error list of a feed say of the same companies. -/
structure HealthAgrees (config : Config) (query : AccountsQuery) (ledger : Ledger)
    (report : HealthReport) (response : SimpleFinResponse) : Prop where
  /-- A connection is shown as failed exactly where the company is parked. -/
  connections : ∀ company,
    (∃ e ∈ response.errlist, e.code = .connectionFailed ∧ e.connId = some company) ↔
      ∃ h ∈ report.companies, h.company = company ∧ h.enabled = true ∧ h.parked = true
  /-- An account is shown as stale exactly where its company is unhealthy for
  another reason. -/
  accounts : ∀ company account,
    (∃ e ∈ response.errlist, e.code = .accountFailed ∧ e.connId = some company ∧
      e.accountId = some account) ↔
      account ∈ (selectedAccounts query company ledger).map (·.id) ∧
        ∃ h ∈ report.companies, h.company = company ∧ h.enabled = true ∧ h.parked = false ∧
          h.healthy = false
  /-- A healthy bridge serves connections and no failures. -/
  ok : report.ok = true → response.connections ≠ [] ∧
    ∀ e ∈ response.errlist, e.code = .balanceUnavailable
  /-- An unhealthy one serves no connection, or a failure, or a company without
  any account asked for. -/
  notOk : report.ok = false → response.connections = [] ∨
    (∃ e ∈ response.errlist, e.code ≠ .balanceUnavailable) ∨
      ∃ h ∈ report.companies, h.enabled = true ∧ h.healthy = false ∧
        selectedAccounts query h.company ledger = []

section
variable {host : Host} {config : Config} {query : AccountsQuery} {now : Instant} {ledger : Ledger}
  {company : CompanyId} {companyConfig : CompanyConfig}

theorem isStale_eq_not_withinHours (state : Option SourceState) :
    isStale config now state = !withinHours (state.bind (·.lastSuccessAt)) config.staleHours now := by
  unfold isStale withinHours
  cases state.bind (·.lastSuccessAt) with
  | none => rfl
  | some last =>
      change decide (now - last > config.staleHours * 3600000) =
        !decide (now - last ≤ config.staleHours * 3600000)
      rw [← decide_not, decide_eq_decide]
      exact Int.not_le.symm

/-- The entries of an enabled company, in the words of the report. -/
theorem companyErrors_eq (accounts : List LedgerAccount) (henabled : companyConfig.enabled = true) :
    companyErrors config now company accounts ledger =
      if (companyHealth config now company companyConfig ledger).parked then
        [⟨.connectionFailed, ErrorCode.connectionFailed.message, some company, none⟩]
      else if (companyHealth config now company companyConfig ledger).healthy then []
      else accounts.map fun account =>
        ⟨.accountFailed, ErrorCode.accountFailed.message, some company, some account.id⟩ := by
  unfold companyErrors
  dsimp only
  by_cases hparked : (ledger.sourceStates.find company).any (·.parked) = true
  · rw [if_pos hparked]
    exact (if_pos hparked).symm
  rw [if_neg hparked, isStale_eq_not_withinHours]
  rw [Bool.not_eq_true] at hparked
  have hreported : (companyHealth config now company companyConfig ledger).parked = false := hparked
  have hhealthy : (companyHealth config now company companyConfig ledger).healthy = withinHours
      ((ledger.sourceStates.find company).bind (·.lastSuccessAt)) config.staleHours now := by
    change (companyConfig.enabled && !(ledger.sourceStates.find company).any (·.parked) && _) = _
    rw [henabled, hparked]
    rfl
  rw [hreported, hhealthy, if_neg Bool.false_ne_true]
  cases withinHours ((ledger.sourceStates.find company).bind (·.lastSuccessAt)) config.staleHours now with
  | false => rfl
  | true => rfl

theorem balanceErrors_code {account : LedgerAccount} {e : SimpleFinError}
    (h : e ∈ balanceErrors account) : e.code = .balanceUnavailable := by
  unfold balanceErrors at h
  split_ifs at h
  · rw [List.mem_singleton.mp h]
  · cases h

/-- The failures of a response are those of its enabled companies. -/
theorem mem_failures {e : SimpleFinError} :
    e ∈ (buildAccountsResponse host config query now ledger).errlist ∧ e.code ≠ .balanceUnavailable ↔
      ∃ entry ∈ config.companies, entry.2.enabled = true ∧
        e ∈ companyErrors config now entry.1 (selectedAccounts query entry.1 ledger) ledger := by
  unfold buildAccountsResponse enabledCompanies
  dsimp only
  constructor
  · rintro ⟨he, hcode⟩
    obtain ⟨entry, hentry, hmem⟩ := List.mem_flatMap.mp he
    obtain ⟨hin, henabled⟩ := List.mem_filter.mp hentry
    rcases List.mem_append.mp hmem with hcompany | hbalance
    · exact ⟨entry, hin, henabled, hcompany⟩
    · obtain ⟨account, -, haccount⟩ := List.mem_flatMap.mp hbalance
      exact absurd (balanceErrors_code haccount) hcode
  · rintro ⟨entry, hin, henabled, hmem⟩
    refine ⟨List.mem_flatMap.mpr ⟨entry, List.mem_filter.mpr ⟨hin, henabled⟩,
      List.mem_append_left _ hmem⟩, ?_⟩
    rw [companyErrors_eq _ henabled] at hmem
    split_ifs at hmem
    · rw [List.mem_singleton.mp hmem]
      exact fun h => ErrorCode.noConfusion h
    · cases hmem
    · obtain ⟨account, -, rfl⟩ := List.mem_map.mp hmem
      exact fun h => ErrorCode.noConfusion h

theorem mem_report {consumers : ConsumerTable} {storedIdScheme : Option String} {h : CompanyHealth} :
    h ∈ (buildHealthReport host config now ledger consumers storedIdScheme).companies ↔
      ∃ entry ∈ config.companies, companyHealth config now entry.1 entry.2 ledger = h :=
  List.mem_map

theorem report_ok {consumers : ConsumerTable} {storedIdScheme : Option String} :
    (buildHealthReport host config now ledger consumers storedIdScheme).ok = true ↔
      enabledCompanies config ≠ [] ∧ ∀ entry ∈ config.companies, entry.2.enabled = true →
        (companyHealth config now entry.1 entry.2 ledger).healthy = true := by
  have hfilter : (config.companies.map fun entry =>
      companyHealth config now entry.1 entry.2 ledger).filter (·.enabled) =
      (enabledCompanies config).map fun entry => companyHealth config now entry.1 entry.2 ledger := by
    rw [List.filter_map]
    rfl
  unfold buildHealthReport
  dsimp only
  rw [hfilter, Bool.and_eq_true, List.all_eq_true, decide_eq_true_eq, List.length_map,
    gt_iff_lt, List.length_pos_iff]
  refine and_congr_right fun _ => ?_
  constructor
  · intro hall entry hentry henabled
    exact hall _ (List.mem_map_of_mem (List.mem_filter.mpr ⟨hentry, henabled⟩))
  · intro hall h hh
    obtain ⟨entry, hentry, rfl⟩ := List.mem_map.mp hh
    obtain ⟨hin, henabled⟩ := List.mem_filter.mp hentry
    exact hall entry hin henabled

/-- **The report and the feed agree**, on every ledger and at every instant. -/
theorem health_agrees_with_feed (host : Host) (config : Config) (query : AccountsQuery)
    (now : Instant) (ledger : Ledger) (consumers : ConsumerTable) (storedIdScheme : Option String) :
    HealthAgrees config query ledger
      (buildHealthReport host config now ledger consumers storedIdScheme)
      (buildAccountsResponse host config query now ledger) := by
  refine ⟨fun company => ?_, fun company account => ?_, fun hok => ?_, fun hbad => ?_⟩
  · constructor
    · rintro ⟨e, he, hcode, hconn⟩
      obtain ⟨entry, hin, henabled, hmem⟩ := mem_failures.mp
        ⟨he, by rw [hcode]; exact fun h => ErrorCode.noConfusion h⟩
      rw [companyErrors_eq _ henabled] at hmem
      split_ifs at hmem with hparked hhealthy
      · rw [List.mem_singleton.mp hmem] at hconn
        exact ⟨_, mem_report.mpr ⟨entry, hin, rfl⟩, Option.some.inj hconn, henabled, hparked⟩
      · cases hmem
      · obtain ⟨account, -, rfl⟩ := List.mem_map.mp hmem
        cases hcode
    · rintro ⟨h, hh, rfl, henabled, hparked⟩
      obtain ⟨entry, hin, rfl⟩ := mem_report.mp hh
      refine ⟨⟨.connectionFailed, ErrorCode.connectionFailed.message, some entry.1, none⟩, ?_, rfl, rfl⟩
      refine (mem_failures.mpr ⟨entry, hin, henabled, ?_⟩).1
      rw [companyErrors_eq _ henabled, if_pos hparked]
      exact List.mem_singleton.mpr rfl
  · constructor
    · rintro ⟨e, he, hcode, hconn, haccount⟩
      obtain ⟨entry, hin, henabled, hmem⟩ := mem_failures.mp
        ⟨he, by rw [hcode]; exact fun h => ErrorCode.noConfusion h⟩
      rw [companyErrors_eq _ henabled] at hmem
      split_ifs at hmem with hparked hhealthy
      · rw [List.mem_singleton.mp hmem] at hcode
        cases hcode
      · cases hmem
      · obtain ⟨row, hrow, rfl⟩ := List.mem_map.mp hmem
        obtain rfl := Option.some.inj hconn
        obtain rfl := Option.some.inj haccount
        exact ⟨List.mem_map_of_mem hrow, _, mem_report.mpr ⟨entry, hin, rfl⟩, rfl, henabled,
          by rwa [Bool.not_eq_true] at hparked, by rwa [Bool.not_eq_true] at hhealthy⟩
    · rintro ⟨haccount, h, hh, rfl, henabled, hparked, hhealthy⟩
      obtain ⟨entry, hin, rfl⟩ := mem_report.mp hh
      obtain ⟨row, hrow, rfl⟩ := List.mem_map.mp haccount
      refine ⟨⟨.accountFailed, ErrorCode.accountFailed.message, some entry.1, some row.id⟩, ?_, rfl, rfl, rfl⟩
      refine (mem_failures.mpr ⟨entry, hin, henabled, ?_⟩).1
      rw [companyErrors_eq _ henabled, hparked, hhealthy, if_neg Bool.false_ne_true,
        if_neg Bool.false_ne_true]
      exact List.mem_map.mpr ⟨row, hrow, rfl⟩
  · obtain ⟨hsome, hall⟩ := report_ok.mp hok
    refine ⟨fun hnone => hsome (List.map_eq_nil_iff.mp hnone), fun e he => ?_⟩
    by_contra hcode
    obtain ⟨entry, hin, henabled, hmem⟩ := mem_failures.mp ⟨he, hcode⟩
    have hhealthy := hall entry hin henabled
    rw [companyErrors_eq _ henabled, hhealthy] at hmem
    have hparked : (companyHealth config now entry.1 entry.2 ledger).parked = false := by
      unfold companyHealth at hhealthy ⊢
      dsimp only at hhealthy ⊢
      rw [Bool.and_eq_true, Bool.and_eq_true, Bool.not_eq_true'] at hhealthy
      exact hhealthy.1.2
    rw [hparked] at hmem
    cases hmem
  · by_contra hfine
    rw [not_or, not_or] at hfine
    obtain ⟨hconnections, hfailures, hempty⟩ := hfine
    have hok := (@report_ok host config now ledger consumers storedIdScheme).mpr ?_
    · rw [hbad] at hok
      cases hok
    · refine ⟨fun hnone => hconnections (List.map_eq_nil_iff.mpr hnone), fun entry hin henabled => ?_⟩
      by_contra hhealthy
      rw [Bool.not_eq_true] at hhealthy
      have hmissing : selectedAccounts query entry.1 ledger ≠ [] := fun hnone =>
        hempty ⟨_, mem_report.mpr ⟨entry, hin, rfl⟩, henabled, hhealthy, hnone⟩
      obtain ⟨row, hrow⟩ := List.exists_mem_of_ne_nil _ hmissing
      have hfailed : ∃ e, e ∈ companyErrors config now entry.1
          (selectedAccounts query entry.1 ledger) ledger := by
        rw [companyErrors_eq _ henabled, hhealthy]
        by_cases hparked : (companyHealth config now entry.1 entry.2 ledger).parked = true
        · rw [if_pos hparked]
          exact ⟨_, List.mem_singleton.mpr rfl⟩
        · rw [if_neg hparked, if_neg Bool.false_ne_true]
          exact ⟨_, List.mem_map_of_mem hrow⟩
      obtain ⟨e, he⟩ := hfailed
      obtain ⟨hlisted, hcode⟩ := mem_failures.mpr ⟨entry, hin, henabled, he⟩
      exact hfailures ⟨e, hlisted, hcode⟩

end

end SimplefinBridge
