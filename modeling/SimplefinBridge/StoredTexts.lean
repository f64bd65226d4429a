import SimplefinBridge.Coverage
import SimplefinBridge.ScrapeRun

/-!
# The texts that are stored of a failure

A bank's pages and errors can hold names, balances or session ids.  Of what a bank says
only the type of an error gets into the ledger: every message that the scheduler stores is
a fixed text of that type, or one that it wrote itself (`stored_texts`).
-/

namespace SimplefinBridge

open Transactional

/-- The message of a failure. -/
def FailureText (type : ScrapeErrorType) (text : String) : Prop :=
  text = type.message ∨ type = .BRIDGE_ERROR ∧ text = credentialMessage

/-- Why a company is parked. -/
def parkedText (company : CompanyId) (type : ScrapeErrorType) : String :=
  if type = .OTP_REQUIRED then
    type.message ++ ": run \"bridge login " ++ company ++ "\", then \"bridge unpark " ++ company ++
      "\""
  else type.message

/-- The message of a visit that the guard refused. -/
inductive SkipText (company : CompanyId) : String → Prop
  | parked (type : ScrapeErrorType) (hparks : isParkingError type = true) :
      SkipText company ("Parked: " ++ parkedText company type)
  | backingOff (time : Instant) : SkipText company ("Backing off until " ++ toIsoString time)
  | capped (attempts maximum : Nat) :
      SkipText company ("Login attempt cap reached (" ++ toString attempts ++ "/" ++
        toString maximum ++ " today)")

/-- The texts of a source state, where `blamed` says what a company may be parked for. -/
structure StateTexts (blamed : CompanyId → ScrapeErrorType → Prop) (state : SourceState) : Prop where
  message : ∀ text, state.lastErrorMessage = some text →
    ∃ type, state.lastErrorType = some type ∧ FailureText type text
  parked : state.parked = true → ∃ type, isParkingError type = true ∧ blamed state.company type ∧
    state.parkedReason = some (parkedText state.company type)

/-- The texts that may stand in the record of a run. -/
structure RunTexts (run : RunRecord) : Prop where
  message : ∀ text, run.message = some text →
    (∃ type, run.errorType = some type ∧ FailureText type text) ∨
      run.status = .skipped ∧ SkipText run.company text

/-- The texts of the ledger. -/
structure LedgerTexts (blamed : CompanyId → ScrapeErrorType → Prop) (w : SchedulerWorld) : Prop where
  states : ∀ state ∈ w.session.ledger.sourceStates.rows, StateTexts blamed state
  runs : ∀ run ∈ w.session.ledger.runs.rows, RunTexts run

section
variable {blamed : CompanyId → ScrapeErrorType → Prop} {state : SourceState} {company : CompanyId}

/-! ## States -/

/-- A new company has no texts. -/
theorem stateTexts_default (company : CompanyId) : StateTexts blamed (defaultSourceState company) := by
  refine ⟨fun text htext => ?_, fun hparked => ?_⟩
  · cases htext
  · cases hparked

/-- A state with the same error and the same parking. -/
theorem StateTexts.same {next : SourceState} (h : StateTexts blamed state)
    (hcompany : next.company = state.company)
    (hmessage : next.lastErrorMessage = state.lastErrorMessage)
    (htype : next.lastErrorType = state.lastErrorType)
    (hparked : next.parked = true → state.parked = true ∧ next.parkedReason = state.parkedReason) :
    StateTexts blamed next := by
  constructor
  · intro text htext
    rw [hmessage] at htext
    rw [htype]
    exact h.message text htext
  · intro hnext
    obtain ⟨hstate, hreason⟩ := hparked hnext
    rw [hcompany, hreason]
    exact h.parked hstate

/-- A fingerprint adds none, -/
theorem StateTexts.fingerprinted (h : StateTexts blamed state) (fingerprint : String) :
    StateTexts blamed (fingerprinted state fingerprint) := by
  unfold SimplefinBridge.fingerprinted
  split_ifs
  · exact h.same rfl rfl rfl fun hparked => by cases hparked
  · exact h.same rfl rfl rfl fun hparked => ⟨hparked, rfl⟩

/-- a new day adds none, -/
theorem StateTexts.rolledOver (h : StateTexts blamed state) (today : IsoDate) :
    StateTexts blamed (rolledOver state today) := by
  unfold SimplefinBridge.rolledOver
  split_ifs
  · exact h.same rfl rfl rfl fun hparked => ⟨hparked, rfl⟩
  · exact h

/-- a counted attempt adds none, -/
theorem StateTexts.counted (h : StateTexts blamed state) (startedAt : Instant) :
    StateTexts blamed (countedState state startedAt) :=
  h.same rfl rfl rfl fun hparked => ⟨hparked, rfl⟩

/-- the time of a run adds none, -/
theorem StateTexts.seen (h : StateTexts blamed state) (startedAt : Instant) :
    StateTexts blamed { state with lastRunAt := some startedAt } :=
  h.same rfl rfl rfl fun hparked => ⟨hparked, rfl⟩

/-- unparking takes one away, -/
theorem StateTexts.unparked (h : StateTexts blamed state) : StateTexts blamed (unparkedState state) :=
  h.same rfl rfl rfl fun hparked => by cases hparked

/-- and so does a success. -/
theorem StateTexts.succeeded (h : StateTexts blamed state) (result : SourceFetchResult)
    (completedAt : Instant) : StateTexts blamed (succeededState state result completedAt) := by
  refine ⟨fun text htext => ?_, h.parked⟩
  cases htext

/-- A failure with a fixed text. -/
theorem StateTexts.failed (h : StateTexts blamed state) (hcompany : state.company = company)
    {type : ScrapeErrorType} {message : String} (hmessage : FailureText type message)
    (hblamed : isParkingError type = true → blamed company type) (current : Instant) :
    StateTexts blamed (applyFailure company state type message current) := by
  unfold applyFailure
  dsimp only
  by_cases hparks : isParkingError type = true
  · rw [if_pos hparks]
    refine ⟨fun text htext => ?_, fun _ => ⟨type, hparks, ?_, ?_⟩⟩
    · obtain rfl := Option.some.inj htext
      exact ⟨type, rfl, hmessage⟩
    · change blamed state.company type
      rw [hcompany]
      exact hblamed hparks
    · rcases hmessage with rfl | ⟨rfl, -⟩
      · change some _ = some (parkedText state.company type)
        rw [hcompany]
        rfl
      · cases hparks
  · rw [if_neg hparks]
    refine ⟨fun text htext => ?_, h.parked⟩
    obtain rfl := Option.some.inj htext
    exact ⟨type, rfl, hmessage⟩

/-- The guard leaves a state of fixed texts, and refuses with one. -/
theorem guard_texts (host : Host) (config : Config) (h : StateTexts blamed state)
    (hcompany : state.company = company) (fingerprint : String) (force : Bool) (current : Instant) :
    StateTexts blamed (guard host config state fingerprint force current).1 ∧
      (guard host config state fingerprint force current).1.company = company ∧
      ∀ message, (guard host config state fingerprint force current).2 = some message →
        SkipText company message := by
  have hprinted := h.fingerprinted fingerprint
  have hsame : (fingerprinted state fingerprint).company = company := by
    unfold SimplefinBridge.fingerprinted
    split_ifs
    · exact hcompany
    · exact hcompany
  unfold SimplefinBridge.guard
  dsimp only
  by_cases hparked : ((fingerprinted state fingerprint).parked && !force) = true
  · rw [if_pos hparked]
    refine ⟨hprinted, hsame, fun message hmessage => ?_⟩
    obtain ⟨type, hparks, -, hreason⟩ := hprinted.parked (Bool.and_eq_true_iff.mp hparked).1
    obtain rfl := Option.some.inj hmessage
    rw [hreason, hsame]
    exact .parked type hparks
  rw [if_neg hparked]
  by_cases hbacking : ((fingerprinted state fingerprint).nextAllowedAt.any
      (fun until_ => decide (current < until_)) && !force) = true
  · rw [if_pos hbacking]
    refine ⟨hprinted, hsame, fun message hmessage => ?_⟩
    obtain rfl := Option.some.inj hmessage
    cases htime : (fingerprinted state fingerprint).nextAllowedAt with
    | none =>
        rw [htime] at hbacking
        cases hbacking
    | some time => exact .backingOff time
  rw [if_neg hbacking]
  have hrolled := hprinted.rolledOver (calendarDate host current config.timezone)
  have hsame' : (rolledOver (fingerprinted state fingerprint)
      (calendarDate host current config.timezone)).company = company := by
    unfold SimplefinBridge.rolledOver
    split_ifs
    · exact hsame
    · exact hsame
  split_ifs
  · refine ⟨hrolled, hsame', fun message hmessage => ?_⟩
    obtain rfl := Option.some.inj hmessage
    exact .capped _ _
  · refine ⟨hrolled, hsame', fun message hmessage => ?_⟩
    cases hmessage

end

/-! ## The steps of a visit -/

section
variable {blamed : CompanyId → ScrapeErrorType → Prop} {company : CompanyId} {α : Type}
  {clock : Nat → Instant}

/-- The texts do not depend on the clock and the journal. -/
theorem LedgerTexts.of_session {w w' : SchedulerWorld} (h : LedgerTexts blamed w)
    (hstates : w'.session.ledger.sourceStates = w.session.ledger.sourceStates)
    (hruns : w'.session.ledger.runs = w.session.ledger.runs) : LedgerTexts blamed w' := by
  refine ⟨fun state hstate => ?_, fun run hrun => ?_⟩
  · rw [hstates] at hstate
    exact h.states state hstate
  · rw [hruns] at hrun
    exact h.runs run hrun

/-- Reading the clock stores no text. -/
theorem texts_now (clock : Nat → Instant) :
    Ensures (LedgerTexts blamed) (now clock) (fun _ => LedgerTexts blamed) (LedgerTexts blamed) :=
  fun _ hw => hw.of_session rfl rfl

/-- Neither does an event, -/
theorem texts_emit (event : Event) :
    Ensures (LedgerTexts blamed) (emit event) (fun _ => LedgerTexts blamed) (LedgerTexts blamed) :=
  fun _ hw => hw.of_session rfl rfl

/-- nor an error that is thrown. -/
theorem texts_raise (result : Except BridgeError α) :
    Ensures (LedgerTexts blamed) (raise result) (fun _ => LedgerTexts blamed) (LedgerTexts blamed) := by
  intro w hw
  unfold raise
  cases result with
  | ok a => exact hw
  | error e => exact hw

/-- An ingestion touches neither states nor runs. -/
theorem texts_onLedgerWith {operation : LedgerM α} (faults : List Bool)
    (hframes : Frames (fun ledger => (ledger.sourceStates, ledger.runs)) operation) :
    Ensures (LedgerTexts blamed) (onLedgerWith faults operation) (fun _ => LedgerTexts blamed)
      (LedgerTexts blamed) := by
  intro w hw
  have hkept := hframes ⟨w.session.ledger, faults⟩
  unfold onLedgerWith
  cases hrun : operation ⟨w.session.ledger, faults⟩ with
  | ok a session =>
      rw [hrun] at hkept
      obtain ⟨hstates, hruns⟩ := Prod.mk.inj hkept
      exact hw.of_session hstates hruns
  | error e session =>
      rw [hrun] at hkept
      obtain ⟨hstates, hruns⟩ := Prod.mk.inj hkept
      exact hw.of_session hstates hruns

/-- A state that is read, or the first one of the company. -/
theorem texts_getSourceState (company : CompanyId) :
    Ensures (LedgerTexts blamed) (onLedger (getSourceState company))
      (fun stored w => (StateTexts blamed (stored.getD (defaultSourceState company)) ∧
        (stored.getD (defaultSourceState company)).company = company) ∧ LedgerTexts blamed w)
      (LedgerTexts blamed) := by
  intro w hw
  have hstored : StateTexts blamed
      ((w.session.ledger.sourceStates.find company).getD (defaultSourceState company)) ∧
      ((w.session.ledger.sourceStates.find company).getD (defaultSourceState company)).company =
        company := by
    cases hfind : w.session.ledger.sourceStates.find company with
    | none => exact ⟨stateTexts_default company, rfl⟩
    | some state =>
        exact ⟨hw.states state (KeyedTable.mem_of_find hfind), KeyedTable.key_of_find hfind⟩
  unfold onLedger getSourceState query
  dsimp only
  by_cases hfault : w.session.faults.headD false
  · rw [if_pos hfault]
    exact hw.of_session rfl rfl
  · rw [if_neg hfault]
    exact ⟨hstored, hw.of_session rfl rfl⟩

/-- A state is stored with its texts. -/
theorem texts_upsertSourceState {next : SourceState} (hnext : StateTexts blamed next) :
    Ensures (LedgerTexts blamed) (onLedger (upsertSourceState next)) (fun _ => LedgerTexts blamed)
      (LedgerTexts blamed) := by
  intro w hw
  unfold onLedger upsertSourceState statement
  dsimp only
  by_cases hfault : w.session.faults.headD false
  · rw [if_pos hfault]
    exact hw.of_session rfl rfl
  · rw [if_neg hfault]
    refine ⟨fun state hstate => ?_, hw.runs⟩
    rcases KeyedTable.mem_put.mp hstate with rfl | ⟨hold, -⟩
    · exact hnext
    · exact hw.states state hold

/-- So is the record of a run. -/
theorem texts_recordRun {run : RunRecord} (hrun : RunTexts run) :
    Ensures (LedgerTexts blamed) (onLedger (recordRun run)) (fun _ => LedgerTexts blamed)
      (LedgerTexts blamed) := by
  intro w hw
  unfold onLedger recordRun statement
  dsimp only
  by_cases hfault : w.session.faults.headD false
  · rw [if_pos hfault]
    exact hw.of_session rfl rfl
  · rw [if_neg hfault]
    refine ⟨hw.states, fun run' hrun' => ?_⟩
    rcases KeyedTable.mem_put.mp hrun' with rfl | ⟨hold, -⟩
    · exact hrun
    · exact hw.runs run' hold

/-- A record has the message of its outcome. -/
theorem texts_record {runId : String} {startedAt : Instant} {status : RunStatus}
    {errorType : Option ScrapeErrorType} {message : Option String} {counts : Counts}
    (hmessage : ∀ text, message = some text →
      (∃ type, errorType = some type ∧ FailureText type text) ∨
        status = .skipped ∧ SkipText company text) :
    Ensures (LedgerTexts blamed)
      (record clock company runId startedAt status errorType message counts)
      (fun _ => LedgerTexts blamed) (LedgerTexts blamed) := by
  unfold record
  apply Ensures.bind (texts_now clock)
  intro finishedAt
  dsimp only
  apply Ensures.bind (texts_recordRun ⟨hmessage⟩)
  intro _
  exact ensures_pure fun _ hw => hw

/-! ## A visit -/

variable {host : Host} {config : Config}

/-- A failure stores its fixed message. -/
theorem texts_finishFailure {behaviour : Behaviour} {startedAt : Instant} {state : SourceState}
    {type : ScrapeErrorType} {message : String} (hstate : StateTexts blamed state)
    (hcompany : state.company = company) (hmessage : FailureText type message)
    (hblamed : isParkingError type = true → blamed company type) :
    Ensures (LedgerTexts blamed)
      (finishFailure clock company behaviour startedAt state type message)
      (fun _ => LedgerTexts blamed) (LedgerTexts blamed) := by
  unfold finishFailure
  apply Ensures.bind (texts_now clock)
  intro current
  apply Ensures.bind (texts_upsertSourceState (hstate.failed hcompany hmessage hblamed current))
  intro _
  refine texts_record fun text htext => .inl ⟨type, rfl, ?_⟩
  rw [← Option.some.inj htext]
  exact hmessage

/-- A success stores the ledger's message, if it is refused. -/
theorem texts_finishSuccess {companyConfig : CompanyConfig} {behaviour : Behaviour}
    {startedAt : Instant} {launch : Launch} {state : SourceState} {result : SourceFetchResult}
    (hstate : StateTexts blamed state) :
    Ensures (LedgerTexts blamed)
      (finishSuccess host config clock company companyConfig behaviour startedAt launch state result)
      (fun _ => LedgerTexts blamed) (LedgerTexts blamed) := by
  unfold finishSuccess
  apply Ensures.bind (texts_now clock)
  intro ingestedAt
  apply Ensures.bind (texts_onLedgerWith _
    (frames_applySuccess host config (fun _ _ _ _ _ _ => rfl) _ _ _ _))
  intro counts
  apply Ensures.bind (texts_now clock)
  intro completedAt
  apply Ensures.bind (texts_upsertSourceState (hstate.succeeded result completedAt))
  intro _
  apply Ensures.bind (texts_emit _)
  intro _
  refine texts_record fun text htext => ?_
  cases htext

/-- An outcome of a scrape that says no more than the type of its error. -/
structure PlainOutcome (blamed : CompanyId → ScrapeErrorType → Prop) (company : CompanyId)
    (outcome : SourceRunOutcome) : Prop where
  fixed : ∀ type message, outcome = .failed type message → message = type.message
  blamed : ∀ type message, outcome = .failed type message → isParkingError type = true →
    blamed company type

/-- **A visit** stores fixed texts, whatever the collaborators do and whichever statements
the database refuses. -/
theorem texts_runOne {options : RunNowOptions} {behaviour : Behaviour}
    {companyConfig : CompanyConfig} (hplain : PlainOutcome blamed company behaviour.outcome) :
    Ensures (LedgerTexts blamed)
      (runOne host config clock options behaviour company companyConfig)
      (fun _ => LedgerTexts blamed) (LedgerTexts blamed) := by
  unfold runOne
  apply Ensures.bind (texts_emit _)
  intro _
  apply Ensures.bind (texts_now clock)
  intro startedAt
  apply Ensures.bind (texts_getSourceState company)
  intro stored
  apply ensures_of_imp
  intro hstored
  obtain ⟨hstate, hcompany⟩ := hstored
  cases hcredentials : behaviour.credentials with
  | none =>
      unfold credentialsFailed
      apply Ensures.bind (texts_now clock)
      intro current
      have htext : FailureText .BRIDGE_ERROR credentialMessage := .inr ⟨rfl, rfl⟩
      have hfailed := hstate.failed hcompany htext (fun hparks => by cases hparks) current
      dsimp only
      apply Ensures.bind (texts_upsertSourceState (hfailed.seen startedAt))
      intro _
      refine texts_record fun text hsame => .inl ⟨.BRIDGE_ERROR, rfl, ?_⟩
      rw [← Option.some.inj hsame]
      exact htext
  | some fingerprint =>
      apply Ensures.bind (texts_now clock)
      intro guardedAt
      apply Ensures.bind (texts_emit _)
      intro _
      obtain ⟨hguarded, hsame, hskips⟩ := guard_texts host config hstate hcompany fingerprint
        options.force guardedAt
      cases hguard : SimplefinBridge.guard host config
          (stored.getD (defaultSourceState company)) fingerprint options.force guardedAt with
      | mk state skip =>
          rw [hguard] at hguarded hsame hskips
          cases skip with
          | some message =>
              dsimp only
              unfold skipRun
              apply Ensures.bind (texts_upsertSourceState hguarded)
              intro _
              refine texts_record fun text htext => .inr ⟨rfl, hskips text htext⟩
          | none =>
              have hcounted := hguarded.counted startedAt
              dsimp only
              unfold attemptRun
              apply Ensures.bind (texts_upsertSourceState hcounted)
              intro _
              apply Ensures.bind (texts_raise _)
              intro startDate
              apply Ensures.bind (texts_raise _)
              intro _
              apply Ensures.bind (texts_emit _)
              intro _
              cases houtcome : behaviour.outcome with
              | ok result => exact texts_finishSuccess hcounted
              | failed type message =>
                  refine texts_finishFailure hcounted hsame (.inl (hplain.fixed _ _ houtcome))
                    (hplain.blamed _ _ houtcome)
              | threw =>
                  refine texts_finishFailure hcounted hsame (.inl rfl) fun hparks => ?_
                  cases hparks

end

/-! ## Any run of the scheduler -/

section
variable {blamed : CompanyId → ScrapeErrorType → Prop} {host : Host} {config : Config}
  {clock : Nat → Instant}

/-- A whole run stores good texts. -/
theorem texts_runNow {options : RunNowOptions} {behaviours : CompanyId → Behaviour}
    (hplain : ∀ entry ∈ config.companies, PlainOutcome blamed entry.1 (behaviours entry.1).outcome) :
    Ensures (LedgerTexts blamed) (runNow host config clock options behaviours)
      (fun _ => LedgerTexts blamed) (LedgerTexts blamed) := by
  have hvisits : Ensures (LedgerTexts blamed)
      (visitCompanies host config clock options behaviours config.companies)
      (fun _ => LedgerTexts blamed) (LedgerTexts blamed) := by
    unfold visitCompanies
    refine ensures_foldlM _ (fun records entry hentry => ?_) []
    unfold visitCompany
    by_cases hselected : isSelected options entry = true
    · rw [if_pos hselected]
      apply Ensures.bind (texts_runOne (hplain entry hentry))
      intro run
      exact ensures_pure fun _ hw => hw
    · rw [if_neg hselected]
      exact ensures_pure fun _ hw => hw
  intro w hw
  unfold runNow
  split_ifs
  · exact hw
  · exact hw
  · have hrun := hvisits (setRunning true w) (hw.of_session rfl rfl)
    unfold whileRunning
    cases hresult : visitCompanies host config clock options behaviours config.companies
        (setRunning true w) with
    | ok a w' =>
        rw [hresult] at hrun
        exact hrun.of_session rfl rfl
    | error e w' =>
        rw [hresult] at hrun
        exact hrun.of_session rfl rfl

/-- What taking a company out of its parking keeps. -/
theorem LedgerTexts.unparked {w : SchedulerWorld} (h : LedgerTexts blamed w) {company : CompanyId}
    {session : Session} {state : SourceState}
    (hfind : w.session.ledger.sourceStates.find company = some state)
    (hledger : session.ledger = { w.session.ledger with
      sourceStates := w.session.ledger.sourceStates.put (unparkedState state) }) :
    LedgerTexts blamed { w with session } := by
  refine ⟨fun state' hstate => ?_, fun run hrun => ?_⟩
  · change state' ∈ session.ledger.sourceStates.rows at hstate
    rw [hledger] at hstate
    rcases KeyedTable.mem_put.mp hstate with rfl | ⟨hold, -⟩
    · exact (h.states state (KeyedTable.mem_of_find hfind)).unparked
    · exact h.states state' hold
  · change run ∈ session.ledger.runs.rows at hrun
    rw [hledger] at hrun
    exact h.runs run hrun

/-- Only the ledger has texts. -/
theorem LedgerTexts.same {w : SchedulerWorld} (h : LedgerTexts blamed w) {session : Session}
    (hledger : session.ledger = w.session.ledger) : LedgerTexts blamed { w with session } :=
  h.of_session (congrArg Ledger.sourceStates hledger) (congrArg Ledger.runs hledger)

/-- Unparking stores no new text. -/
theorem texts_unpark (company : CompanyId) :
    Ensures (LedgerTexts blamed) (unparkJournaled company) (fun _ => LedgerTexts blamed)
      (LedgerTexts blamed) := by
  have hstep : Ensures (LedgerTexts blamed) (onLedger (unparkCompany company))
      (fun _ => LedgerTexts blamed) (LedgerTexts blamed) := by
    intro w hw
    have hspec := ensures_unparkCompany company w.session.ledger w.session rfl
    unfold onLedger
    cases hrun : unparkCompany company w.session with
    | ok unparked session =>
        rw [hrun] at hspec
        cases unparked with
        | true =>
            obtain ⟨state, hfind, hledger⟩ := hspec
            exact hw.unparked hfind hledger
        | false => exact hw.same hspec
    | error e session =>
        rw [hrun] at hspec
        exact hw.same hspec
  unfold unparkJournaled
  apply Ensures.bind hstep
  intro unparked
  cases unparked with
  | true => exact texts_emit _
  | false => exact ensures_pure fun _ hw => hw

/-- The outcomes of an operation say no more than the types of their errors. -/
def PlainOperation (blamed : CompanyId → ScrapeErrorType → Prop) (config : Config) :
    Operation → Prop
  | .run call => ∀ entry ∈ config.companies,
      PlainOutcome blamed entry.1 (call.behaviours entry.1).outcome
  | .unpark _ _ => True

/-- **Every operation stores good texts.** -/
theorem texts_perform {w : SchedulerWorld} (h : LedgerTexts blamed w) {operation : Operation}
    (hplain : PlainOperation blamed config operation) :
    LedgerTexts blamed (perform host config clock w operation) := by
  have hw : LedgerTexts blamed
      { w with session := { w.session with faults := operation.faults } } := h.same rfl
  unfold perform
  cases operation with
  | run call =>
      unfold Operation.program
      dsimp only
      rw [storeAfter_discard]
      exact (texts_runNow hplain).storeAfter hw
  | unpark company faults => exact (texts_unpark company).storeAfter hw

/-- A new ledger has none. -/
theorem ledgerTexts_start : LedgerTexts blamed (SchedulerWorld.start emptyLedger) :=
  ⟨fun _ hstate => absurd hstate List.not_mem_nil, fun _ hrun => absurd hrun List.not_mem_nil⟩

/-- **Run rule.**  What every operation of a run may say, its ledger says. -/
theorem texts_run {operations : List Operation} {w : SchedulerWorld} (h : LedgerTexts blamed w)
    (hplain : ∀ operation ∈ operations, PlainOperation blamed config operation) :
    LedgerTexts blamed (Runs.run (perform host config clock) w operations) := by
  induction operations generalizing w with
  | nil => exact h
  | cons operation operations ih =>
      exact ih (texts_perform h (hplain operation List.mem_cons_self))
        fun later hlater => hplain later (List.mem_cons_of_mem _ hlater)

end

/-! ## Scrapes -/

/-- The scrape of a visit: it threw, or a run of the scraper returned. -/
inductive ScrapedOutcome (company : CompanyId) (outcome : SourceRunOutcome) : Prop
  | threw (hthrew : outcome = .threw)
  | returned (ctx : RunContext) (before : List InvestmentCall) (events : List RunEvent)
      (hcompany : ctx.company = company)
      (hstage : (Runs.run (companyStep ctx) (startRun ctx (reachedDb ctx.host .hapoalim before))
        events).stage = .returned outcome)

/-- An operation of the run scraped the company, and there was evidence for an error of
this type. -/
def Blamed (operations : List Operation) (company : CompanyId) (type : ScrapeErrorType) : Prop :=
  ∃ call, .run call ∈ operations ∧ ∃ (ctx : RunContext) (before : List InvestmentCall)
    (events : List RunEvent), ctx.company = company ∧
    (Runs.run (companyStep ctx) (startRun ctx (reachedDb ctx.host .hapoalim before)) events).stage =
      .returned (call.behaviours company).outcome ∧ ParkingEvidence ctx events type

/-- An outcome of a scrape has a plain text. -/
theorem ScrapedOutcome.plain {operations : List Operation} {company : CompanyId} {call : RunCall}
    (hcall : .run call ∈ operations) (h : ScrapedOutcome company (call.behaviours company).outcome) :
    PlainOutcome (Blamed operations) company (call.behaviours company).outcome := by
  cases h with
  | threw hthrew =>
      rw [hthrew]
      refine ⟨fun _ _ h => ?_, fun _ _ h => ?_⟩
      · cases h
      · cases h
  | returned ctx before events hcompany hstage =>
      have hlaw := (runInv_run ctx (reachedDb ctx.host .hapoalim before) events).law
      have hdecided : (Runs.run (companyStep ctx)
          (startRun ctx (reachedDb ctx.host .hapoalim before)) events).stage.decided ctx =
          some (call.behaviours company).outcome := by
        rw [hstage]
        rfl
      refine ⟨fun type message hfailed => ?_, fun type message hfailed hparks => ?_⟩
      · exact hlaw.fixed type message (hdecided.trans (congrArg some hfailed))
      · exact ⟨call, hcall, ctx, before, events, hcompany, hstage,
          hlaw.parks type message (hdecided.trans (congrArg some hfailed)) hparks⟩

/-- **The stored texts.**  The scheduler runs and companies are unparked in any order, over
a database that refuses any statements.  If every outcome is one of a scrape, then the
ledger holds of each error its type and a fixed text, and a company is parked only where
a scrape of it had evidence. -/
theorem stored_texts (host : Host) (config : Config) (clock : Nat → Instant)
    (operations : List Operation)
    (hscraped : ∀ call, .run call ∈ operations → ∀ entry ∈ config.companies,
      ScrapedOutcome entry.1 (call.behaviours entry.1).outcome) :
    LedgerTexts (Blamed operations)
      (Runs.run (perform host config clock) (SchedulerWorld.start emptyLedger) operations) := by
  refine texts_run ledgerTexts_start fun operation hoperation => ?_
  cases operation with
  | run call =>
      exact fun entry hentry => ScrapedOutcome.plain hoperation (hscraped call hoperation entry hentry)
  | unpark company faults => exact True.intro

/-- A scrape that ends with a wrong password, and says whose. -/
def rejectedScrape : RunContext where
  host := asciiHost
  newUrl _ := none
  company := "isracard"
  config := ⟨true, "Isracard", .credit_card, none, none, true, .purchase, false⟩
  timezone := "UTC"
  defaultCurrency := "ILS"
  hapoalimInvestments := none
  profile := ["Default", "SingletonLock"]
  stuck := []
  screenshotsListed := true
  screenshotFault := false

/-- A bank that answers with a name and an amount. -/
def rejectedEvents : List RunEvent :=
  [.opened, .libraryEnds (.failure (some "INVALID_PASSWORD") (some "Dana Levi, 5,120.00 ILS")),
    .killed false]

/-- The run that makes of it. -/
def rejectedCall : RunCall :=
  ⟨⟨none, none, none, false⟩, fun _ => ⟨some "fingerprint", true,
    .failed .INVALID_PASSWORD ScrapeErrorType.INVALID_PASSWORD.message, [], fun _ => 0, "run"⟩, []⟩

/-- Nothing of that answer is stored. -/
theorem stored_texts_rejected :
    LedgerTexts (Blamed [.run rejectedCall]) (Runs.run (perform asciiHost oneCompany everyTenDays)
      (SchedulerWorld.start emptyLedger) [.run rejectedCall]) := by
  refine stored_texts asciiHost oneCompany everyTenDays [.run rejectedCall]
    fun call hcall entry hentry => ?_
  obtain rfl := Operation.run.inj (List.mem_singleton.mp hcall)
  obtain rfl := List.mem_singleton.mp hentry
  exact .returned rejectedScrape [] rejectedEvents rfl rfl

end SimplefinBridge
