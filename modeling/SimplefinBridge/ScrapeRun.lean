import SimplefinBridge.CollectedImports
import SimplefinBridge.MytradeRequests
import SimplefinBridge.Scheduler

/-!
# One run of the scraper

`runCompany` races the scraper against a deadline.  A run of Hapoalim whose
investments are collected too launches the browser itself, so that the page stays
logged in when the scraper is done, and then reads the securities account in it.

The browser, the scraper and the deadline go on concurrently: `companyStep` is the
code that runs on one of their events, up to its next `await`.
-/

namespace SimplefinBridge

/-! ## Errors -/

/-- `SCRAPE_ERROR_MESSAGES` -/
def ScrapeErrorType.message : ScrapeErrorType → String
  | .INVALID_PASSWORD => "Bank rejected the credentials"
  | .CHANGE_PASSWORD => "Bank requires a password change"
  | .ACCOUNT_BLOCKED => "Bank reports the account as blocked"
  | .TIMEOUT => "Scrape exceeded its time limit"
  | .GENERIC => "Scraper failed with a generic error"
  | .GENERAL_ERROR => "Scraper failed with a general error"
  | .TWO_FACTOR_RETRIEVER_MISSING =>
      "Scraper needs a two-factor code retriever that is not configured"
  | .OTP_REQUIRED => "Bank asked for a one-time code; run \"bridge login\" for this company"
  | .BRIDGE_ERROR => "Bridge internal error"

/-- `KNOWN_TYPES` -/
def knownTypes : List (String × ScrapeErrorType) := [
  ("INVALID_PASSWORD", .INVALID_PASSWORD), ("CHANGE_PASSWORD", .CHANGE_PASSWORD),
  ("ACCOUNT_BLOCKED", .ACCOUNT_BLOCKED), ("TIMEOUT", .TIMEOUT), ("GENERIC", .GENERIC),
  ("GENERAL_ERROR", .GENERAL_ERROR),
  ("TWO_FACTOR_RETRIEVER_MISSING", .TWO_FACTOR_RETRIEVER_MISSING),
  ("OTP_REQUIRED", .OTP_REQUIRED), ("BRIDGE_ERROR", .BRIDGE_ERROR)]

/-- Words of a challenge. -/
def otpWords : List (List Char) := ["otp", "sms"].map String.toList

/-- `\botp\b|\bsms\b` at the front of a text, behind a character. -/
def startsOtpWord (before : Option Char) (text : List Char) : Bool :=
  before.all (fun c => !isWordChar c) && otpWords.contains ((text.take 3).map Char.toLower) &&
    (text.drop 3).head?.all fun c => !isWordChar c

/-- `OTP_PATTERN.test` behind a character. -/
def hasOtpWord (before : Option Char) : List Char → Bool
  | [] => false
  | c :: rest => startsOtpWord before (c :: rest) || hasOtpWord (some c) rest

/-- `looksLikeOtpChallenge(text)` -/
def looksLikeOtpChallenge (text : Option String) : Bool :=
  text.any fun text => hasOtpWord none text.toList

/-- Errors that an OTP form explains better. -/
def canInferOtp : ScrapeErrorType → Bool
  | .GENERIC | .GENERAL_ERROR | .TIMEOUT => true
  | _ => false

/-- `mapScraperError`: the bridge's own error type and its fixed message. -/
def mapScraperError (errorType errorMessage : Option String) (observedOtpForm : Bool) :
    ScrapeErrorType × String :=
  let type := (errorType.bind fun name => knownTypes.lookup name).getD .GENERIC
  if canInferOtp type && (observedOtpForm || looksLikeOtpChallenge errorMessage) then
    (.OTP_REQUIRED, ScrapeErrorType.OTP_REQUIRED.message)
  else (type, type.message)

/-- The outcome that a mapped error makes. -/
def mappedFailure (mapped : ScrapeErrorType × String) : SourceRunOutcome :=
  .failed mapped.1 mapped.2

/-- The outcome of an error of the bridge itself. -/
def bridgeFailure : SourceRunOutcome := .failed .BRIDGE_ERROR ScrapeErrorType.BRIDGE_ERROR.message

/-! ## Investments of the same login -/

/-- A path of word characters, dashes and slashes. -/
def isApiPath : List Char → Bool
  | '/' :: rest => rest ≠ [] && rest.all fun c => isWordChar c || c = '-' || c = '/'
  | _ => false

/-- The path at which the bank serves the securities. -/
def transactionsSuffix : String := "/current-account/transactions"

/-- The REST base of a checking request; `none` for a text that is no URL. -/
def hapoalimApiBase (url : Option RequestUrl) : Option String := do
  let url ← url
  let path := url.pathname.toList
  let base := path.take (path.length - transactionsSuffix.toList.length)
  if url.origin ≠ HAPOALIM_ORIGIN ∨ ¬ transactionsSuffix.toList <:+ path then none
  else if isApiPath base then some (url.origin ++ String.ofList base)
  else none

/-- What the collection meets, besides the store. -/
structure CollectionAnswers where
  /-- `new Date()` -/
  attemptedAt : Instant
  /-- The directories of the capture are made. -/
  directories : Bool
  /-- The three minutes are over first. -/
  timedOut : Bool
  /-- The page up to its session. -/
  boot : Except HapoalimError Unit
  portfolio : Except HapoalimError JsValue
  fetchPage : FetchPage
  aborted : List (Option String) → Bool
  snapshotFaults : List Bool
  summaryWritten : Bool
  failureFaults : List Bool

/-- The configuration of the shared investments. -/
structure HapoalimInvestmentsConfig where
  enabled : Bool
  historyStartDate : IsoDate

/-- `SourceRunContext`, with what surrounds it. -/
structure RunContext where
  host : Host
  /-- `new URL` -/
  newUrl : String → Option RequestUrl
  company : CompanyId
  config : CompanyConfig
  timezone : String
  defaultCurrency : String
  hapoalimInvestments : Option HapoalimInvestmentsConfig
  /-- The files of the profile directory before the run. -/
  profile : List String
  /-- Those that cannot be removed. -/
  stuck : List String
  /-- The directory of the screenshots is made and listed. -/
  screenshotsListed : Bool
  /-- The mode of the screenshot cannot be changed. -/
  screenshotFault : Bool

/-- The run collects investments in the same login. -/
def RunContext.sharedInvestments (ctx : RunContext) : Bool :=
  ctx.company = "hapoalim" && ctx.hapoalimInvestments.any (·.enabled)

/-- What the browser reads of the securities. -/
def readHapoalimSecurities (ctx : RunContext) (apiBase : String) (window : HapoalimWindow)
    (answers : CollectionAnswers) : Except HapoalimError HapoalimSecuritiesRead := do
  if hapoalimApiBase (ctx.newUrl (apiBase ++ transactionsSuffix)) ≠ some apiBase ∨
      selectorParts window.accountSelector = none ∨ window.toDate < window.fromDate ∨
      hasShape "dddd-dd-dd".toList window.fromDate.toList = false ∨
      hasShape "dddd-dd-dd".toList window.toDate.toList = false then invalid
  else
    answers.boot
    let portfolio ← answers.portfolio
    let _ ← bankRecord portfolio
    let (history, _) ← readExecutionPages answers.fetchPage answers.aborted
    return ⟨portfolio, history⟩

/-- The code of an exception of the collection. -/
def HapoalimError.errorCode : HapoalimError → InvestmentErrorCode
  | .code e => e
  -- the signal is aborted with the error of the timer
  | .aborted => .TIMEOUT
  | _ => .INVALID_RESPONSE

/-- The snapshot that the collection gives the store. -/
def collectedSnapshot (ctx : RunContext) (settings : HapoalimInvestmentsConfig) (apiBase : String)
    (answers : CollectionAnswers) : Except HapoalimError InvestmentSnapshot :=
  match ctx.config.accounts with
  | some [accountSelector] =>
      if !answers.directories then invalid
      else if answers.timedOut then .error (.code .TIMEOUT)
      else do
        let window : HapoalimWindow := {
          accountSelector, fromDate := settings.historyStartDate
          toDate := calendarDate ctx.host answers.attemptedAt ctx.timezone
          observedAt := toIsoString answers.attemptedAt }
        let read ← readHapoalimSecurities ctx apiBase window answers
        buildHapoalimSnapshot ctx.host read window
  | _ => invalid

/-- How a failed collection is recorded. -/
def collectionFailure (answers : CollectionAnswers) (errorCode : InvestmentErrorCode) :
    InvestmentCall where
  op := .recordFailure {
    status := if errorCode = .OTP_REQUIRED then .auth_required else .partially
    attemptedAt := toIsoString answers.attemptedAt, errorCode }
  faults := answers.failureFaults

/-- The calls of the store that `collectHapoalimInvestments` makes. -/
def collectHapoalimInvestments (ctx : RunContext) (apiBase : String) (answers : CollectionAnswers)
    (db : InvestmentDb) : List InvestmentCall :=
  match ctx.hapoalimInvestments with
  | none => []
  | some settings =>
      if !settings.enabled || ctx.company ≠ "hapoalim" then []
      else
        match collectedSnapshot ctx settings apiBase answers with
        | .error error => [collectionFailure answers error.errorCode]
        | .ok snapshot =>
            let apply : InvestmentCall := ⟨.applySnapshot snapshot, answers.snapshotFaults⟩
            match apply.result ctx.host .hapoalim db with
            | .ok _ _ =>
                if answers.summaryWritten then [apply]
                else [apply, collectionFailure answers .INVALID_RESPONSE]
            | .error _ _ => [apply, collectionFailure answers .INVALID_RESPONSE]

/-! ## The run -/

/-- Chrome leaves these behind when it is killed, and does not start while they exist. -/
def SINGLETON_FILES : List String := ["SingletonLock", "SingletonSocket", "SingletonCookie"]

/-- The files of a profile without the locks of a killed Chrome; `none` where `rmSync`
throws. -/
def clearStaleLocks (stuck profile : List String) : Option (List String) :=
  SINGLETON_FILES.foldlM (fun files name =>
    if files.contains name && stuck.contains name then none
    else some (files.filter (· ≠ name))) profile

/-- What Chrome finds in its profile, where the calls before the `try` block return. -/
def RunContext.prepared (ctx : RunContext) : Option (List String) := do
  let files ← clearStaleLocks ctx.stuck ctx.profile
  if ctx.screenshotsListed then some files else none

/-- The function inside the race. -/
inductive ScrapeStage
  /-- `puppeteer.launch`, by a run that shares its login. -/
  | launching
  /-- The browser came after the deadline and is being closed. -/
  | closingLate
  | scraping
  | settled
  deriving DecidableEq, Repr

/-- The function around the race. -/
inductive RunStage
  | racing
  /-- The deadline has passed and the browser is being closed. -/
  | killing
  | collecting (result : SourceFetchResult)
  /-- The browser is being closed in the end. -/
  | closing (outcome : SourceRunOutcome)
  | returned (outcome : SourceRunOutcome)

/-- A browser of the run. -/
structure RunBrowser where
  alive : Bool
  connected : Bool
  deriving DecidableEq, Repr

/-- The run of a company, as it stands. -/
structure CompanyRun where
  scrape : ScrapeStage
  stage : RunStage := .racing
  browser : Option RunBrowser := none
  /-- `scrapeCancelled` -/
  cancelled : Bool := false
  lastUrl : Option String := none
  observedOtpForm : Bool := false
  observedApiBase : Option String := none
  /-- Calls of `scraper.scrape` so far. -/
  logins : Nat
  /-- The store of the shared investments. -/
  db : InvestmentDb

/-- How `scraper.scrape` ends. -/
inductive LibraryEnd
  | success (result : ScraperScrapingResult) (scrapedAt : Instant)
  | failure (errorType errorMessage : Option String)
  | threw

/-- What happens to the run. -/
inductive RunEvent
  /-- `puppeteer.launch` settles. -/
  | launched (ok : Bool)
  /-- The browser that came late is closed. -/
  | lateClosed
  /-- The library shows the browser that it opened; it opens one. -/
  | opened
  /-- The browser ended, or the library closed it. -/
  | gone
  /-- The connection to the browser is lost. -/
  | disconnected
  | navigated (url : String)
  | requested (url : Option RequestUrl)
  | otpFormShown
  | libraryEnds (ending : LibraryEnd)
  | deadline
  /-- `killBrowser` is done. -/
  | killed (connected : Bool)
  | collected (answers : CollectionAnswers)

/-- The run up to its first `await`; nothing catches an exception before the `try`
block. -/
def startRun (ctx : RunContext) (db : InvestmentDb) : CompanyRun :=
  if ctx.prepared.isNone then { scrape := .settled, stage := .returned .threw, logins := 0, db }
  else if ctx.sharedInvestments then { scrape := .launching, logins := 0, db }
  else { scrape := .scraping, logins := 1, db }

namespace CompanyRun

/-- The form is watched for until the run is over. -/
def watches (ctx : RunContext) (w : CompanyRun) : Bool :=
  ctx.company = "hapoalim" &&
    match w.stage with
    | .racing | .killing | .collecting _ => true
    | _ => false

/-- The `finally` block, and the outcome behind it. -/
def leave (ctx : RunContext) (outcome : SourceRunOutcome) (w : CompanyRun) : CompanyRun :=
  let stage : RunStage :=
    if ctx.screenshotFault then .returned .threw
    else if w.browser.any (·.connected) then .closing outcome
    else .returned outcome
  { w with cancelled := true, stage }

/-- The deadline passes before the library has answered. -/
def timedOut (ctx : RunContext) (w : CompanyRun) : CompanyRun :=
  w.leave ctx (mappedFailure (mapScraperError (some "TIMEOUT") none w.observedOtpForm))

/-- `[errorMessage, lastUrl].filter(Boolean).join(' ')` -/
def failureText (errorMessage lastUrl : Option String) : String :=
  " ".intercalate ([errorMessage, lastUrl].filterMap given)

/-- The race is won by the scraper. -/
def finishRun (ctx : RunContext) (ending : LibraryEnd) (w : CompanyRun) : CompanyRun :=
  match ending with
  | .threw => w.leave ctx bridgeFailure
  | .failure errorType errorMessage =>
      w.leave ctx (mappedFailure (mapScraperError errorType
        (some (failureText errorMessage w.lastUrl)) w.observedOtpForm))
  | .success result scrapedAt =>
      match normalizeScrapeResult ctx.host {
          company := ctx.company, config := ctx.config, result, scrapedAt
          timezone := ctx.timezone, defaultCurrency := ctx.defaultCurrency } with
      | .error _ => w.leave ctx bridgeFailure
      | .ok result =>
          if ctx.sharedInvestments && w.browser.any (·.connected) then
            { w with stage := .collecting result }
          else w.leave ctx (.ok result)

/-- The promise in the race settles. -/
def settle (ctx : RunContext) (ending : LibraryEnd) (w : CompanyRun) : CompanyRun :=
  let w := { w with scrape := .settled }
  match w.stage with
  | .racing => w.finishRun ctx ending
  | _ => w

end CompanyRun

/-- What runs on an event; one that nothing waits for does nothing. -/
def companyStep (ctx : RunContext) (w : CompanyRun) : RunEvent → CompanyRun
  | .launched ok =>
      if w.scrape = .launching then
        if ok then
          let w := { w with browser := some ⟨true, true⟩ }
          if w.cancelled then { w with scrape := .closingLate }
          else { w with scrape := .scraping, logins := w.logins + 1 }
        else w.settle ctx .threw
      else w
  | .lateClosed =>
      if w.scrape = .closingLate then
        { w with browser := some ⟨false, false⟩ }.settle ctx .threw
      else w
  | .opened =>
      if w.scrape = .scraping ∧ ctx.sharedInvestments = false ∧ w.browser = none then
        { w with browser := some ⟨true, true⟩ }
      else w
  | .gone => { w with browser := w.browser.map fun _ => ⟨false, false⟩ }
  | .disconnected => { w with browser := w.browser.map fun b => { b with connected := false } }
  | .navigated url => { w with lastUrl := some url }
  | .requested url =>
      if ctx.sharedInvestments then
        { w with observedApiBase := (hapoalimApiBase url).or w.observedApiBase }
      else w
  | .otpFormShown => if w.watches ctx then { w with observedOtpForm := true } else w
  | .libraryEnds ending => if w.scrape = .scraping then w.settle ctx ending else w
  | .deadline =>
      match w.stage with
      | .racing =>
          let w := { w with cancelled := true }
          match w.browser with
          | some _ => { w with stage := .killing }
          | none => w.timedOut ctx
      | _ => w
  | .killed connected =>
      match w.stage with
      | .killing => { w with browser := some ⟨false, connected⟩ }.timedOut ctx
      | .closing outcome =>
          { w with browser := some ⟨false, connected⟩, stage := .returned outcome }
      | _ => w
  | .collected answers =>
      match w.stage with
      | .collecting result =>
          { w with db := Runs.run (callStep ctx.host .hapoalim) w.db
                     (collectHapoalimInvestments ctx (w.observedApiBase.getD "") answers w.db) }.leave
            ctx (.ok result)
      | _ => w

/-! ## What a step does -/

section
variable {ctx : RunContext} {w : CompanyRun}

/-- A step of the run: what is seen of the page, what becomes of the browser, and how the
race, the deadline and the collection end. -/
inductive RunEffect (ctx : RunContext) (w : CompanyRun) : RunEvent → CompanyRun → Prop
  | ignored (event : RunEvent) : RunEffect ctx w event w
  | navigated (url : String) : RunEffect ctx w (.navigated url) { w with lastUrl := some url }
  | requested (url : Option RequestUrl) (hshared : ctx.sharedInvestments = true) :
      RunEffect ctx w (.requested url)
        { w with observedApiBase := (hapoalimApiBase url).or w.observedApiBase }
  | otpFormShown (hcompany : ctx.company = "hapoalim") :
      RunEffect ctx w .otpFormShown { w with observedOtpForm := true }
  | opened (hscrape : w.scrape = .scraping) (hshared : ctx.sharedInvestments = false)
      (hbrowser : w.browser = none) :
      RunEffect ctx w .opened { w with browser := some ⟨true, true⟩ }
  | gone : RunEffect ctx w .gone { w with browser := w.browser.map fun _ => ⟨false, false⟩ }
  | disconnected : RunEffect ctx w .disconnected
      { w with browser := w.browser.map fun b => { b with connected := false } }
  | launched (hscrape : w.scrape = .launching) (hcancelled : w.cancelled = false) :
      RunEffect ctx w (.launched true)
        { w with browser := some ⟨true, true⟩, scrape := .scraping, logins := w.logins + 1 }
  | launchedLate (hscrape : w.scrape = .launching) (hcancelled : w.cancelled = true) :
      RunEffect ctx w (.launched true)
        { w with browser := some ⟨true, true⟩, scrape := .closingLate }
  | settledLate (event : RunEvent) (browser : Option RunBrowser) (hstage : w.stage ≠ .racing)
      (hunsettled : w.scrape ≠ .settled)
      (hbrowser : browser = w.browser ∧ w.scrape ≠ .closingLate ∨ browser = some ⟨false, false⟩) :
      RunEffect ctx w event { w with scrape := .settled, browser }
  | finished (event : RunEvent) (ending : LibraryEnd) (hstage : w.stage = .racing)
      (hending : event = .libraryEnds ending ∨
        event = .launched false ∧ ending = .threw ∧ w.scrape = .launching) :
      RunEffect ctx w event ({ w with scrape := .settled }.finishRun ctx ending)
  /-- No run gets there (`RunProgress.waiting`). -/
  | finishedLate (v : CompanyRun) (hstage : w.stage = .racing) (hscrape : w.scrape = .closingLate) :
      RunEffect ctx w .lateClosed v
  | expired (hstage : w.stage = .racing) (b : RunBrowser) (hbrowser : w.browser = some b) :
      RunEffect ctx w .deadline { w with cancelled := true, stage := .killing }
  | expiredUnopened (hstage : w.stage = .racing) (hbrowser : w.browser = none) :
      RunEffect ctx w .deadline ({ w with cancelled := true }.timedOut ctx)
  | killed (connected : Bool) (hstage : w.stage = .killing) :
      RunEffect ctx w (.killed connected)
        ({ w with browser := some ⟨false, connected⟩ }.timedOut ctx)
  | closed (connected : Bool) (outcome : SourceRunOutcome) (hstage : w.stage = .closing outcome) :
      RunEffect ctx w (.killed connected)
        { w with browser := some ⟨false, connected⟩, stage := .returned outcome }
  | collected (answers : CollectionAnswers) (result : SourceFetchResult)
      (hstage : w.stage = .collecting result) :
      RunEffect ctx w (.collected answers)
        ({ w with db := Runs.run (callStep ctx.host .hapoalim) w.db
                    (collectHapoalimInvestments ctx (w.observedApiBase.getD "") answers w.db) }.leave
          ctx (.ok result))

/-- An answer within the deadline decides the run. -/
theorem settle_racing {ending : LibraryEnd} (h : w.stage = .racing) :
    w.settle ctx ending = { w with scrape := .settled }.finishRun ctx ending := by
  unfold CompanyRun.settle
  dsimp only
  rw [h]

/-- A later one decides nothing. -/
theorem settle_late {ending : LibraryEnd} (h : w.stage ≠ .racing) :
    w.settle ctx ending = { w with scrape := .settled } := by
  unfold CompanyRun.settle
  dsimp only
  split
  · next hracing => exact absurd hracing h
  · rfl

/-- **Every event has the effect that is written down for it.** -/
theorem companyStep_effect (ctx : RunContext) (w : CompanyRun) (event : RunEvent) :
    RunEffect ctx w event (companyStep ctx w event) := by
  unfold companyStep
  cases event with
  | launched ok =>
      dsimp only
      by_cases hscrape : w.scrape = .launching
      · rw [if_pos hscrape]
        cases ok with
        | true =>
            rw [if_pos rfl]
            by_cases hcancelled : w.cancelled = true
            · rw [if_pos hcancelled]
              exact .launchedLate hscrape hcancelled
            · rw [if_neg hcancelled]
              exact .launched hscrape (Bool.eq_false_iff.mpr hcancelled)
        | false =>
            rw [if_neg Bool.false_ne_true]
            by_cases hstage : w.stage = .racing
            · rw [settle_racing hstage]
              exact .finished _ _ hstage (.inr ⟨rfl, rfl, hscrape⟩)
            · rw [settle_late hstage]
              refine .settledLate _ w.browser hstage ?_ (.inl ⟨rfl, ?_⟩)
              · rw [hscrape]
                exact ScrapeStage.noConfusion
              · rw [hscrape]
                exact ScrapeStage.noConfusion
      · rw [if_neg hscrape]
        exact .ignored _
  | lateClosed =>
      dsimp only
      by_cases hscrape : w.scrape = .closingLate
      · rw [if_pos hscrape]
        by_cases hstage : w.stage = .racing
        · exact .finishedLate _ hstage hscrape
        · rw [@settle_late ctx { w with browser := some ⟨false, false⟩ } .threw hstage]
          refine .settledLate _ _ hstage ?_ (.inr rfl)
          rw [hscrape]
          exact ScrapeStage.noConfusion
      · rw [if_neg hscrape]
        exact .ignored _
  | opened =>
      dsimp only
      split_ifs with hopens
      · exact .opened hopens.1 hopens.2.1 hopens.2.2
      · exact .ignored _
  | gone => exact .gone
  | disconnected => exact .disconnected
  | navigated url => exact .navigated url
  | requested url =>
      dsimp only
      split_ifs with hshared
      · exact .requested url hshared
      · exact .ignored _
  | otpFormShown =>
      dsimp only
      split_ifs with hwatches
      · unfold CompanyRun.watches at hwatches
        rw [Bool.and_eq_true, decide_eq_true_eq] at hwatches
        exact .otpFormShown hwatches.1
      · exact .ignored _
  | libraryEnds ending =>
      dsimp only
      by_cases hscrape : w.scrape = .scraping
      · rw [if_pos hscrape]
        by_cases hstage : w.stage = .racing
        · rw [settle_racing hstage]
          exact .finished _ _ hstage (.inl rfl)
        · rw [settle_late hstage]
          refine .settledLate _ w.browser hstage ?_ (.inl ⟨rfl, ?_⟩)
          · rw [hscrape]
            exact ScrapeStage.noConfusion
          · rw [hscrape]
            exact ScrapeStage.noConfusion
      · rw [if_neg hscrape]
        exact .ignored _
  | deadline =>
      dsimp only
      split
      · next hstage =>
        split
        · next b hbrowser => exact .expired hstage b hbrowser
        · next hbrowser => exact .expiredUnopened hstage hbrowser
      · exact .ignored _
  | killed connected =>
      dsimp only
      split
      · next hstage => exact .killed connected hstage
      · next outcome hstage => exact .closed connected outcome hstage
      · exact .ignored _
  | collected answers =>
      dsimp only
      split
      · next result hstage => exact .collected answers result hstage
      · exact .ignored _

/-! ## Outcomes -/

/-- The outcome that nothing changes any more. -/
def RunStage.decided (ctx : RunContext) : RunStage → Option SourceRunOutcome
  | .racing | .killing => none
  | .collecting result => some (if ctx.screenshotFault then .threw else .ok result)
  | .closing outcome | .returned outcome => some outcome

/-- `observedOtpForm` is seen on a page of Hapoalim. -/
def SawForm (ctx : RunContext) (events : List RunEvent) (form : Bool) : Prop :=
  form = true → ctx.company = "hapoalim" ∧ .otpFormShown ∈ events

/-- The page was navigated to. -/
def ShownUrl (events : List RunEvent) (lastUrl : Option String) : Prop :=
  ∀ url ∈ lastUrl, .navigated url ∈ events

/-- What an internal error comes from. -/
inductive BridgeCause (ctx : RunContext) (events : List RunEvent) : Prop
  /-- The browser of a shared login does not start. -/
  | launch (hshared : ctx.sharedInvestments = true) (hevent : .launched false ∈ events)
  | threw (hevent : .libraryEnds .threw ∈ events)
  /-- What was scraped is not normalized. -/
  | malformed (result : ScraperScrapingResult) (scrapedAt : Instant) (error : BridgeError)
      (hevent : .libraryEnds (.success result scrapedAt) ∈ events)
      (hnormalized : normalizeScrapeResult ctx.host {
        company := ctx.company, config := ctx.config, result, scrapedAt
        timezone := ctx.timezone, defaultCurrency := ctx.defaultCurrency } = .error error)

/-- What an outcome comes from. -/
inductive Explained (ctx : RunContext) (events : List RunEvent) : SourceRunOutcome → Prop
  | ok (result : ScraperScrapingResult) (scrapedAt : Instant) (normalized : SourceFetchResult)
      (hevent : .libraryEnds (.success result scrapedAt) ∈ events)
      (hnormalized : normalizeScrapeResult ctx.host {
        company := ctx.company, config := ctx.config, result, scrapedAt
        timezone := ctx.timezone, defaultCurrency := ctx.defaultCurrency } = .ok normalized) :
      Explained ctx events (.ok normalized)
  | failure (errorType errorMessage lastUrl : Option String) (form : Bool)
      (hevent : .libraryEnds (.failure errorType errorMessage) ∈ events)
      (hurl : ShownUrl events lastUrl) (hform : SawForm ctx events form) :
      Explained ctx events (mappedFailure (mapScraperError errorType
        (some (CompanyRun.failureText errorMessage lastUrl)) form))
  | timedOut (form : Bool) (hevent : .deadline ∈ events) (hform : SawForm ctx events form) :
      Explained ctx events (mappedFailure (mapScraperError (some "TIMEOUT") none form))
  | bridge (hcause : BridgeCause ctx events) : Explained ctx events bridgeFailure
  | fault (hfault : ctx.screenshotFault = true ∨ ctx.prepared = none) : Explained ctx events .threw

/-- Leaving decides the outcome, unless the screenshots fail. -/
theorem decided_leave (outcome : SourceRunOutcome) :
    (w.leave ctx outcome).stage.decided ctx =
      some (if ctx.screenshotFault then .threw else outcome) := by
  unfold CompanyRun.leave
  dsimp only
  split_ifs
  · rfl
  · rfl
  · rfl

/-- So an explained outcome stays explained. -/
theorem Explained.left {events : List RunEvent} {outcome : SourceRunOutcome}
    (h : Explained ctx events outcome) :
    Explained ctx events (if ctx.screenshotFault then .threw else outcome) := by
  by_cases hfault : ctx.screenshotFault = true
  · rw [if_pos hfault]
    exact .fault (.inl hfault)
  · rw [if_neg hfault]
    exact h

/-- What the run has seen and decided. -/
structure RunOutcomes (ctx : RunContext) (events : List RunEvent) (w : CompanyRun) : Prop where
  url : ShownUrl events w.lastUrl
  form : SawForm ctx events w.observedOtpForm
  api : ∀ base ∈ w.observedApiBase, ∃ url, .requested url ∈ events ∧ hapoalimApiBase url = some base
  killing : w.stage = .killing → .deadline ∈ events
  explained : ∀ outcome, w.stage.decided ctx = some outcome → Explained ctx events outcome

/-- More events explain no less: -/
theorem ShownUrl.mono {events later : List RunEvent} {lastUrl : Option String}
    (h : ShownUrl events lastUrl) : ShownUrl (events ++ later) lastUrl :=
  fun url hurl => List.mem_append_left _ (h url hurl)

/-- a form that was seen was seen, -/
theorem SawForm.mono {events later : List RunEvent} {form : Bool} (h : SawForm ctx events form) :
    SawForm ctx (events ++ later) form :=
  fun hform => ⟨(h hform).1, List.mem_append_left _ (h hform).2⟩

/-- what failed has failed, -/
theorem BridgeCause.mono {events later : List RunEvent} (h : BridgeCause ctx events) :
    BridgeCause ctx (events ++ later) := by
  cases h with
  | launch hshared hevent => exact .launch hshared (List.mem_append_left _ hevent)
  | threw hevent => exact .threw (List.mem_append_left _ hevent)
  | malformed result scrapedAt error hevent hnormalized =>
      exact .malformed result scrapedAt error (List.mem_append_left _ hevent) hnormalized

/-- an outcome is still explained, -/
theorem Explained.mono {events later : List RunEvent} {outcome : SourceRunOutcome}
    (h : Explained ctx events outcome) : Explained ctx (events ++ later) outcome := by
  cases h with
  | ok result scrapedAt normalized hevent hnormalized =>
      exact .ok result scrapedAt normalized (List.mem_append_left _ hevent) hnormalized
  | failure errorType errorMessage lastUrl form hevent hurl hform =>
      exact .failure errorType errorMessage lastUrl form (List.mem_append_left _ hevent) hurl.mono
        hform.mono
  | timedOut form hevent hform => exact .timedOut form (List.mem_append_left _ hevent) hform.mono
  | bridge hcause => exact .bridge hcause.mono
  | fault hfault => exact .fault hfault

/-- the outcome of the run as well, -/
theorem RunOutcomes.mono {events later : List RunEvent} (h : RunOutcomes ctx events w) :
    RunOutcomes ctx (events ++ later) w where
  url := h.url.mono
  form := h.form.mono
  api base hbase := by
    obtain ⟨url, hurl, hsame⟩ := h.api base hbase
    exact ⟨url, List.mem_append_left _ hurl, hsame⟩
  killing hstage := List.mem_append_left _ (h.killing hstage)
  explained outcome hdecided := (h.explained outcome hdecided).mono

/-- A run that leaves the race with an outcome that is explained. -/
theorem RunOutcomes.leave {events : List RunEvent} {outcome : SourceRunOutcome}
    (hurl : ShownUrl events w.lastUrl) (hform : SawForm ctx events w.observedOtpForm)
    (hapi : ∀ base ∈ w.observedApiBase, ∃ url, .requested url ∈ events ∧
      hapoalimApiBase url = some base)
    (houtcome : Explained ctx events outcome) : RunOutcomes ctx events (w.leave ctx outcome) where
  url := hurl
  form := hform
  api := hapi
  killing hstage := by
    unfold CompanyRun.leave at hstage
    dsimp only at hstage
    split_ifs at hstage
  explained outcome' hdecided := by
    rw [decided_leave] at hdecided
    rw [← Option.some.inj hdecided]
    exact houtcome.left

/-- What the race is won with is explained. -/
theorem RunOutcomes.finishRun {events : List RunEvent} {ending : LibraryEnd}
    (h : RunOutcomes ctx events w)
    (hending : .libraryEnds ending ∈ events ∨
      ending = .threw ∧ ctx.sharedInvestments = true ∧ .launched false ∈ events) :
    RunOutcomes ctx events (w.finishRun ctx ending) := by
  unfold CompanyRun.finishRun
  cases ending with
  | threw =>
      refine .leave h.url h.form h.api (.bridge ?_)
      rcases hending with hevent | ⟨-, hshared, hevent⟩
      · exact .threw hevent
      · exact .launch hshared hevent
  | failure errorType errorMessage =>
      have hevent := hending.resolve_right fun hthrew => LibraryEnd.noConfusion hthrew.1
      exact .leave h.url h.form h.api
        (.failure errorType errorMessage w.lastUrl w.observedOtpForm hevent h.url h.form)
  | success result scrapedAt =>
      have hevent := hending.resolve_right fun hthrew => LibraryEnd.noConfusion hthrew.1
      dsimp only
      split
      · next error hnormalized =>
        exact .leave h.url h.form h.api
          (.bridge (.malformed result scrapedAt error hevent hnormalized))
      · next normalized hnormalized =>
        have hok : Explained ctx events (.ok normalized) :=
          .ok result scrapedAt normalized hevent hnormalized
        split_ifs
        · refine ⟨h.url, h.form, h.api, fun hstage => ?_, fun outcome hdecided => ?_⟩
          · cases hstage
          · obtain rfl := Option.some.inj hdecided
            exact hok.left
        · exact .leave h.url h.form h.api hok

/-- **One event** adds to what was seen, and decides at most once. -/
theorem RunOutcomes.step {events : List RunEvent} {event : RunEvent} {w' : CompanyRun}
    (h : RunOutcomes ctx events w) (heffect : RunEffect ctx w event w')
    (hwaiting : w.stage = .racing → w.scrape ≠ .closingLate)
    (hlaunching : w.scrape = .launching → ctx.sharedInvestments = true) :
    RunOutcomes ctx (events ++ [event]) w' := by
  have hnow : event ∈ events ++ [event] := List.mem_append_right _ List.mem_cons_self
  have hkept := @RunOutcomes.mono ctx w events [event] h
  cases heffect with
  | ignored => exact hkept
  | navigated url =>
      refine ⟨fun url' hurl' => ?_, hkept.form, hkept.api, hkept.killing, hkept.explained⟩
      obtain rfl := Option.some.inj hurl'
      exact hnow
  | requested url hshared =>
      refine ⟨hkept.url, hkept.form, fun base hbase => ?_, hkept.killing, hkept.explained⟩
      change (hapoalimApiBase url).or w.observedApiBase = some base at hbase
      rcases Option.or_eq_some_iff.mp hbase with hnew | ⟨-, hold⟩
      · exact ⟨url, hnow, hnew⟩
      · exact hkept.api base hold
  | otpFormShown hcompany =>
      exact ⟨hkept.url, fun _ => ⟨hcompany, hnow⟩, hkept.api, hkept.killing, hkept.explained⟩
  | opened hscrape hshared hbrowser =>
      exact ⟨hkept.url, hkept.form, hkept.api, hkept.killing, hkept.explained⟩
  | gone => exact ⟨hkept.url, hkept.form, hkept.api, hkept.killing, hkept.explained⟩
  | disconnected => exact ⟨hkept.url, hkept.form, hkept.api, hkept.killing, hkept.explained⟩
  | launched hscrape hcancelled =>
      exact ⟨hkept.url, hkept.form, hkept.api, hkept.killing, hkept.explained⟩
  | launchedLate hscrape hcancelled =>
      exact ⟨hkept.url, hkept.form, hkept.api, hkept.killing, hkept.explained⟩
  | settledLate _ browser hstage hunsettled hbrowser =>
      exact ⟨hkept.url, hkept.form, hkept.api, hkept.killing, hkept.explained⟩
  | finished _ ending hstage hending =>
      refine RunOutcomes.finishRun
        ⟨hkept.url, hkept.form, hkept.api, hkept.killing, hkept.explained⟩ ?_
      rcases hending with rfl | ⟨rfl, rfl, hscrape⟩
      · exact .inl hnow
      · exact .inr ⟨rfl, hlaunching hscrape, hnow⟩
  | finishedLate v hstage hscrape => exact absurd hscrape (hwaiting hstage)
  | expired hstage b hbrowser =>
      refine ⟨hkept.url, hkept.form, hkept.api, fun _ => hnow, fun outcome hdecided => ?_⟩
      cases hdecided
  | expiredUnopened hstage hbrowser =>
      exact .leave hkept.url hkept.form hkept.api (.timedOut w.observedOtpForm hnow hkept.form)
  | killed connected hstage =>
      exact .leave hkept.url hkept.form hkept.api
        (.timedOut w.observedOtpForm (hkept.killing hstage) hkept.form)
  | closed connected outcome hstage =>
      refine ⟨hkept.url, hkept.form, hkept.api, fun hkilling => ?_, fun outcome' hdecided => ?_⟩
      · cases hkilling
      · apply hkept.explained
        rw [hstage]
        exact hdecided
  | collected answers result hstage =>
      have hdecided : w.stage.decided ctx = some (if ctx.screenshotFault then .threw else .ok result) := by
        rw [hstage]
        rfl
      refine ⟨hkept.url, hkept.form, hkept.api, fun hkilling => ?_, fun outcome' hdecided' => ?_⟩
      · unfold CompanyRun.leave at hkilling
        dsimp only at hkilling
        split_ifs at hkilling
      · rw [decided_leave] at hdecided'
        exact hkept.explained outcome' (hdecided.trans hdecided')

/-! ## Progress -/

/-- The library of a login of its own opened its browser when the run was over. -/
def OpenedLate (ctx : RunContext) (start : CompanyRun) (events : List RunEvent) : Prop :=
  ctx.sharedInvestments = false ∧ ∃ earlier later outcome, events = earlier ++ .opened :: later ∧
    (Runs.run (companyStep ctx) start earlier).stage = .returned outcome

/-- A run whose calls before the `try` block threw. -/
structure NeverBegun (w : CompanyRun) : Prop where
  scrape : w.scrape = .settled
  stage : w.stage = .returned .threw
  logins : w.logins = 0
  browser : w.browser = none

/-- Where the two functions can be, and what is left of the browser. -/
structure RunProgress (ctx : RunContext) (start : CompanyRun) (events : List RunEvent)
    (w : CompanyRun) : Prop where
  racing : w.stage = .racing → w.cancelled = false ∧ (w.scrape = .launching ∨ w.scrape = .scraping)
  collecting : ∀ result, w.stage = .collecting result → w.scrape = .settled
  cancelled : w.cancelled = false → w.scrape ≠ .settled → w.stage = .racing
  launching : w.scrape = .launching → ctx.sharedInvestments = true
  notYet : w.scrape = .launching ∨ w.scrape = .closingLate → w.logins = 0
  logins : w.logins ≤ 1
  closed : ctx.screenshotFault = false → ∀ outcome, w.stage = .returned outcome →
    ∀ b ∈ w.browser, b.alive = true → b.connected = true →
      w.scrape = .closingLate ∨ OpenedLate ctx start events
  neverBegun : ctx.prepared = none → NeverBegun w

/-- What `leave` makes of the stage. -/
theorem leave_stage (outcome : SourceRunOutcome) :
    (∃ o, (w.leave ctx outcome).stage = .closing o) ∨
      ∃ o, (w.leave ctx outcome).stage = .returned o ∧
        (ctx.screenshotFault = true ∨ w.browser.any (·.connected) = false) := by
  unfold CompanyRun.leave
  dsimp only
  by_cases hfault : ctx.screenshotFault = true
  · rw [if_pos hfault]
    exact .inr ⟨_, rfl, .inl hfault⟩
  rw [if_neg hfault]
  by_cases hconnected : w.browser.any (·.connected) = true
  · rw [if_pos hconnected]
    exact .inl ⟨_, rfl⟩
  · rw [if_neg hconnected]
    exact .inr ⟨_, rfl, .inr (Bool.eq_false_iff.mpr hconnected)⟩

/-- A run that leaves the race closes its browser where it has one. -/
theorem RunProgress.leave {start : CompanyRun} {events : List RunEvent} (outcome : SourceRunOutcome)
    (hlaunching : w.scrape = .launching → ctx.sharedInvestments = true)
    (hnotYet : w.scrape = .launching ∨ w.scrape = .closingLate → w.logins = 0)
    (hlogins : w.logins ≤ 1) (hbegun : ctx.prepared ≠ none) :
    RunProgress ctx start events (w.leave ctx outcome) := by
  have hcases := @leave_stage ctx w outcome
  refine ⟨fun hracing => ?_, fun result hcollecting => ?_, fun hcancelled => ?_, hlaunching, hnotYet,
    hlogins, fun hfault o hreturned b hb _ hconnected => ?_, fun hnone => absurd hnone hbegun⟩
  · rw [hracing] at hcases
    rcases hcases with ⟨o, hstage⟩ | ⟨o, hstage, -⟩
    · cases hstage
    · cases hstage
  · rw [hcollecting] at hcases
    rcases hcases with ⟨o, hstage⟩ | ⟨o, hstage, -⟩
    · cases hstage
    · cases hstage
  · cases hcancelled
  · rcases hcases with ⟨o', hstage⟩ | ⟨o', -, hwhy⟩
    · rw [hreturned] at hstage
      cases hstage
    · rcases hwhy with hfaulty | hnone
      · rw [hfault] at hfaulty
        cases hfaulty
      · have hb' : w.browser = some b := hb
        rw [hb', Option.any_some, hconnected] at hnone
        cases hnone

/-- The race is won by the scraper. -/
theorem RunProgress.finishRun {start : CompanyRun} {events : List RunEvent} {ending : LibraryEnd}
    (hscrape : w.scrape = .settled) (hlogins : w.logins ≤ 1) (hbegun : ctx.prepared ≠ none) :
    RunProgress ctx start events (w.finishRun ctx ending) := by
  have hlaunching : w.scrape = .launching → ctx.sharedInvestments = true := by
    intro h
    rw [hscrape] at h
    cases h
  have hnotYet : w.scrape = .launching ∨ w.scrape = .closingLate → w.logins = 0 := by
    intro h
    rw [hscrape] at h
    rcases h with h | h
    · cases h
    · cases h
  unfold CompanyRun.finishRun
  cases ending with
  | threw => exact .leave _ hlaunching hnotYet hlogins hbegun
  | failure errorType errorMessage => exact .leave _ hlaunching hnotYet hlogins hbegun
  | success result scrapedAt =>
      dsimp only
      split
      · exact .leave _ hlaunching hnotYet hlogins hbegun
      · next normalized hnormalized =>
        split_ifs
        · refine ⟨fun hstage => ?_, fun _ _ => hscrape, fun _ hsettled => absurd hscrape hsettled,
            hlaunching, hnotYet, hlogins, fun _ outcome hstage => ?_,
            fun hnone => absurd hnone hbegun⟩
          · cases hstage
          · cases hstage
        · exact .leave _ hlaunching hnotYet hlogins hbegun

/-- a late browser was late, -/
theorem OpenedLate.mono {start : CompanyRun} {events later : List RunEvent}
    (h : OpenedLate ctx start events) : OpenedLate ctx start (events ++ later) := by
  obtain ⟨hshared, earlier, behind, outcome, hevents, hreturned⟩ := h
  refine ⟨hshared, earlier, behind ++ later, outcome, ?_, hreturned⟩
  rw [hevents, List.append_assoc, List.cons_append]

/-- and what was done was done. -/
theorem RunProgress.mono {start : CompanyRun} {events later : List RunEvent}
    (h : RunProgress ctx start events w) : RunProgress ctx start (events ++ later) w where
  racing := h.racing
  collecting := h.collecting
  cancelled := h.cancelled
  launching := h.launching
  notYet := h.notYet
  logins := h.logins
  closed hfault outcome hstage b hb halive hconnected :=
    (h.closed hfault outcome hstage b hb halive hconnected).imp id OpenedLate.mono
  neverBegun := h.neverBegun

/-- A run that is still on has begun. -/
theorem RunProgress.begun {start : CompanyRun} {events : List RunEvent}
    (h : RunProgress ctx start events w) (hstage : ∀ outcome, w.stage ≠ .returned outcome) :
    ctx.prepared ≠ none :=
  fun hnone => hstage _ (h.neverBegun hnone).stage

/-- Only the scraper's own function waits for a run that has returned. -/
theorem NeverBegun.keeps {w' : CompanyRun} (h : NeverBegun w) (hscrape : w'.scrape = w.scrape)
    (hstage : w'.stage = w.stage) (hlogins : w'.logins = w.logins)
    (hbrowser : w.browser = none → w'.browser = none) : NeverBegun w' where
  scrape := hscrape.trans h.scrape
  stage := hstage.trans h.stage
  logins := hlogins.trans h.logins
  browser := hbrowser h.browser

/-- A dead browser is not left. -/
theorem dead_browser {connected : Bool} {b : RunBrowser} {P : Prop}
    (hb : b ∈ some (RunBrowser.mk false connected)) (halive : b.alive = true) : P := by
  obtain rfl := Option.some.inj hb
  cases halive

/-- **One event** moves the run on. -/
theorem RunProgress.step {start : CompanyRun} {events : List RunEvent} {event : RunEvent}
    {w' : CompanyRun} (h : RunProgress ctx start events w)
    (hreached : w = Runs.run (companyStep ctx) start events) (heffect : RunEffect ctx w event w') :
    RunProgress ctx start (events ++ [event]) w' := by
  have hkept := @RunProgress.mono ctx w start events [event] h
  cases heffect with
  | ignored => exact hkept
  | navigated url =>
      exact ⟨h.racing, h.collecting, h.cancelled, h.launching, h.notYet, h.logins, hkept.closed,
        fun hnone => (h.neverBegun hnone).keeps rfl rfl rfl id⟩
  | requested url hshared =>
      exact ⟨h.racing, h.collecting, h.cancelled, h.launching, h.notYet, h.logins, hkept.closed,
        fun hnone => (h.neverBegun hnone).keeps rfl rfl rfl id⟩
  | otpFormShown hcompany =>
      exact ⟨h.racing, h.collecting, h.cancelled, h.launching, h.notYet, h.logins, hkept.closed,
        fun hnone => (h.neverBegun hnone).keeps rfl rfl rfl id⟩
  | opened hscrape hshared hbrowser =>
      refine ⟨h.racing, h.collecting, h.cancelled, h.launching, h.notYet, h.logins,
        fun _ outcome hreturned _ _ _ _ => .inr ⟨hshared, events, [], outcome, rfl, ?_⟩,
        fun hnone => ?_⟩
      · rw [← hreached]
        exact hreturned
      · have hsettled := (h.neverBegun hnone).scrape
        rw [hscrape] at hsettled
        cases hsettled
  | gone =>
      refine ⟨h.racing, h.collecting, h.cancelled, h.launching, h.notYet, h.logins,
        fun _ _ _ b hb halive _ => ?_, fun hnone => (h.neverBegun hnone).keeps rfl rfl rfl ?_⟩
      · obtain ⟨b₀, -, rfl⟩ := Option.map_eq_some_iff.mp hb
        cases halive
      · exact fun hbrowser => by rw [hbrowser]; rfl
  | disconnected =>
      refine ⟨h.racing, h.collecting, h.cancelled, h.launching, h.notYet, h.logins,
        fun _ _ _ b hb _ hconnected => ?_, fun hnone => (h.neverBegun hnone).keeps rfl rfl rfl ?_⟩
      · obtain ⟨b₀, -, rfl⟩ := Option.map_eq_some_iff.mp hb
        cases hconnected
      · exact fun hbrowser => by rw [hbrowser]; rfl
  | launched hscrape hcancelled =>
      have hracing : w.stage = .racing := by
        refine h.cancelled hcancelled ?_
        rw [hscrape]
        exact ScrapeStage.noConfusion
      have hlogins := h.notYet (.inl hscrape)
      refine ⟨fun _ => ⟨hcancelled, .inr rfl⟩, fun result hcollecting => ?_, fun _ _ => hracing,
        fun hlaunching => ?_, fun hlate => ?_, ?_, fun _ outcome hreturned => ?_, fun hnone => ?_⟩
      · exact absurd (hracing.symm.trans hcollecting) RunStage.noConfusion
      · cases hlaunching
      · rcases hlate with hlate | hlate
        · cases hlate
        · cases hlate
      · change w.logins + 1 ≤ 1
        omega
      · exact absurd (hracing.symm.trans hreturned) RunStage.noConfusion
      · have hsettled := (h.neverBegun hnone).scrape
        rw [hscrape] at hsettled
        cases hsettled
  | launchedLate hscrape hcancelled =>
      refine ⟨fun hracing => ?_, fun result hcollecting => ?_, fun hfalse => ?_, fun hlaunching => ?_,
        fun _ => h.notYet (.inl hscrape), h.logins, fun _ _ _ _ _ _ _ => .inl rfl, fun hnone => ?_⟩
      · have hfalse := (h.racing hracing).1
        rw [hcancelled] at hfalse
        cases hfalse
      · have hsettled := h.collecting result hcollecting
        rw [hscrape] at hsettled
        cases hsettled
      · rw [hcancelled] at hfalse
        cases hfalse
      · cases hlaunching
      · have hsettled := (h.neverBegun hnone).scrape
        rw [hscrape] at hsettled
        cases hsettled
  | settledLate _ browser hstage hunsettled hbrowser =>
      refine ⟨fun hracing => absurd hracing hstage, fun _ _ => rfl,
        fun _ hsettled => absurd rfl hsettled, fun hlaunching => ?_, fun hlate => ?_, h.logins,
        fun hfault outcome hreturned b hb halive hconnected => ?_, fun hnone => ?_⟩
      · cases hlaunching
      · rcases hlate with hlate | hlate
        · cases hlate
        · cases hlate
      · rcases hbrowser with ⟨rfl, hscrape⟩ | rfl
        · rcases hkept.closed hfault outcome hreturned b hb halive hconnected with hlate | hopened
          · exact absurd hlate hscrape
          · exact .inr hopened
        · exact dead_browser hb halive
      · exact absurd (h.neverBegun hnone).scrape hunsettled
  | finished _ ending hstage hending =>
      exact RunProgress.finishRun rfl h.logins (h.begun fun o ho =>
        absurd (hstage.symm.trans ho) RunStage.noConfusion)
  | finishedLate v hstage hscrape =>
      rcases (h.racing hstage).2 with hlaunching | hscraping
      · rw [hscrape] at hlaunching
        cases hlaunching
      · rw [hscrape] at hscraping
        cases hscraping
  | expired hstage b hbrowser =>
      have hbegun := h.begun fun o ho => absurd (hstage.symm.trans ho) RunStage.noConfusion
      refine ⟨fun hracing => ?_, fun result hcollecting => ?_, fun hfalse => ?_, h.launching, h.notYet,
        h.logins, fun _ outcome hreturned => ?_, fun hnone => absurd hnone hbegun⟩
      · cases hracing
      · cases hcollecting
      · cases hfalse
      · cases hreturned
  | expiredUnopened hstage hbrowser =>
      exact .leave _ h.launching h.notYet h.logins (h.begun fun o ho =>
        absurd (hstage.symm.trans ho) RunStage.noConfusion)
  | killed connected hstage =>
      exact .leave _ h.launching h.notYet h.logins (h.begun fun o ho =>
        absurd (hstage.symm.trans ho) RunStage.noConfusion)
  | closed connected outcome hstage =>
      have hbegun := h.begun fun o ho => absurd (hstage.symm.trans ho) RunStage.noConfusion
      refine ⟨fun hracing => ?_, fun result hcollecting => ?_, fun hfalse hsettled => ?_, h.launching,
        h.notYet, h.logins, fun _ _ _ b hb halive _ => dead_browser hb halive,
        fun hnone => absurd hnone hbegun⟩
      · cases hracing
      · cases hcollecting
      · exact absurd (hstage.symm.trans (h.cancelled hfalse hsettled)) RunStage.noConfusion
  | collected answers result hstage =>
      exact .leave _ h.launching h.notYet h.logins (h.begun fun o ho =>
        absurd (hstage.symm.trans ho) RunStage.noConfusion)

/-- A decision stays. -/
theorem decided_step {event : RunEvent} {w' : CompanyRun} {outcome : SourceRunOutcome}
    (heffect : RunEffect ctx w event w') (h : w.stage.decided ctx = some outcome) :
    w'.stage.decided ctx = some outcome := by
  cases heffect with
  | finished _ ending hstage hending =>
      rw [hstage] at h
      cases h
  | finishedLate v hstage hscrape =>
      rw [hstage] at h
      cases h
  | expired hstage b hbrowser =>
      rw [hstage] at h
      cases h
  | expiredUnopened hstage hbrowser =>
      rw [hstage] at h
      cases h
  | killed connected hstage =>
      rw [hstage] at h
      cases h
  | closed connected outcome' hstage =>
      rw [hstage] at h
      exact h
  | collected answers result hstage =>
      rw [hstage] at h
      rw [decided_leave]
      exact h
  | _ => exact h

/-- **An outcome is final.** -/
theorem decided_run {outcome : SourceRunOutcome} (h : w.stage.decided ctx = some outcome)
    (events : List RunEvent) :
    (Runs.run (companyStep ctx) w events).stage.decided ctx = some outcome := by
  induction events generalizing w with
  | nil => exact h
  | cons event events ih => exact ih (decided_step (companyStep_effect ctx w event) h)

/-! ## The store of the investments -/

/-- The base of a collection was taken from a request of the page. -/
def ObservedBase (events : List RunEvent) (base : String) : Prop :=
  base = "" ∨ ∃ url, .requested url ∈ events ∧ hapoalimApiBase url = some base

/-- The store is left alone until the checking result is there, and then collected into
once. -/
structure RunStore (ctx : RunContext) (db : InvestmentDb) (events : List RunEvent)
    (w : CompanyRun) : Prop where
  shared : ∀ result, w.stage = .collecting result → ctx.sharedInvestments = true
  before : w.stage.decided ctx = none ∨ (∃ result, w.stage = .collecting result) → w.db = db
  collected : w.db = db ∨ ∃ answers base result, .collected answers ∈ events ∧
    ObservedBase events base ∧ ctx.sharedInvestments = true ∧
    w.stage.decided ctx = some (if ctx.screenshotFault then .threw else .ok result) ∧
    w.db = Runs.run (callStep ctx.host .hapoalim) db
      (collectHapoalimInvestments ctx base answers db)

/-- The answer of the library writes nothing to the store. -/
theorem finishRun_db (ending : LibraryEnd) : (w.finishRun ctx ending).db = w.db := by
  unfold CompanyRun.finishRun
  cases ending with
  | threw => rfl
  | failure errorType errorMessage => rfl
  | success result scrapedAt =>
      dsimp only
      split
      · rfl
      · split_ifs
        · rfl
        · rfl

/-- A run that has left collects no more. -/
theorem leave_not_collecting {outcome : SourceRunOutcome} {result : SourceFetchResult} :
    (w.leave ctx outcome).stage ≠ .collecting result := by
  intro hstage
  rcases @leave_stage ctx w outcome with ⟨o, hclosing⟩ | ⟨o, hreturned, -⟩
  · rw [hstage] at hclosing
    cases hclosing
  · rw [hstage] at hreturned
    cases hreturned

/-- Only shared investments are collected. -/
theorem finishRun_collecting {ending : LibraryEnd} {result : SourceFetchResult}
    (h : (w.finishRun ctx ending).stage = .collecting result) : ctx.sharedInvestments = true := by
  unfold CompanyRun.finishRun at h
  cases ending with
  | threw => exact absurd h leave_not_collecting
  | failure errorType errorMessage => exact absurd h leave_not_collecting
  | success result' scrapedAt =>
      dsimp only at h
      split at h
      · exact absurd h leave_not_collecting
      · by_cases hshared : (ctx.sharedInvestments && w.browser.any (·.connected)) = true
        · exact (Bool.and_eq_true_iff.mp hshared).1
        · rw [if_neg hshared] at h
          exact absurd h leave_not_collecting

/-- A run that has left its store alone. -/
theorem RunStore.untouched {db : InvestmentDb} {events : List RunEvent}
    (hshared : ∀ result, w.stage = .collecting result → ctx.sharedInvestments = true)
    (hdb : w.db = db) : RunStore ctx db events w :=
  ⟨hshared, fun _ => hdb, .inl hdb⟩

/-- A step that keeps the decision and the store. -/
theorem RunStore.keeps {db : InvestmentDb} {events : List RunEvent} {event : RunEvent}
    {w' : CompanyRun} (h : RunStore ctx db events w)
    (hstage : w'.stage.decided ctx = w.stage.decided ctx)
    (hcollecting : ∀ result, w'.stage = .collecting result → w.stage = .collecting result)
    (hdb : w'.db = w.db) : RunStore ctx db (events ++ [event]) w' := by
  refine ⟨fun result hresult => h.shared result (hcollecting result hresult), fun hbefore => ?_, ?_⟩
  · rw [hdb]
    apply h.before
    rw [← hstage]
    exact hbefore.imp id fun hresult => hresult.imp fun result => hcollecting result
  · rw [hdb, hstage]
    refine h.collected.imp id fun hcollected => ?_
    obtain ⟨answers, base, result, hevent, hbase, hrest⟩ := hcollected
    refine ⟨answers, base, result, List.mem_append_left _ hevent, hbase.imp id fun hurl => ?_, hrest⟩
    obtain ⟨url, hurl, hsame⟩ := hurl
    exact ⟨url, List.mem_append_left _ hurl, hsame⟩

/-- **One event** collects at most, and once. -/
theorem RunStore.step {db : InvestmentDb} {events : List RunEvent} {event : RunEvent}
    {w' : CompanyRun} (h : RunStore ctx db events w) (hseen : RunOutcomes ctx events w)
    (heffect : RunEffect ctx w event w') (hwaiting : w.stage = .racing → w.scrape ≠ .closingLate) :
    RunStore ctx db (events ++ [event]) w' := by
  have hracing : w.stage = .racing → w.db = db := by
    intro hstage
    apply h.before
    rw [hstage]
    exact .inl rfl
  cases heffect with
  | finished _ ending hstage hending =>
      refine RunStore.untouched (fun result hcollecting => finishRun_collecting hcollecting) ?_
      rw [finishRun_db]
      exact hracing hstage
  | finishedLate v hstage hscrape => exact absurd hscrape (hwaiting hstage)
  | expired hstage b hbrowser =>
      refine RunStore.untouched (fun result hcollecting => ?_) (hracing hstage)
      cases hcollecting
  | expiredUnopened hstage hbrowser =>
      exact RunStore.untouched (fun _ hcollecting => absurd hcollecting leave_not_collecting)
        (hracing hstage)
  | killed connected hstage =>
      refine RunStore.untouched (fun _ hcollecting => absurd hcollecting leave_not_collecting) ?_
      apply h.before
      rw [hstage]
      exact .inl rfl
  | closed connected outcome hstage =>
      refine h.keeps ?_ (fun result hresult => ?_) rfl
      · rw [hstage]
        rfl
      · cases hresult
  | collected answers result hstage =>
      have hdb := h.before (.inr ⟨result, hstage⟩)
      refine ⟨fun _ hcollecting => absurd hcollecting leave_not_collecting, fun hbefore => ?_,
        .inr ⟨answers, w.observedApiBase.getD "", result,
          List.mem_append_right _ List.mem_cons_self, ?_, h.shared result hstage,
          decided_leave _, ?_⟩⟩
      · rcases hbefore with hnone | ⟨result', hcollecting⟩
        · rw [decided_leave] at hnone
          cases hnone
        · exact absurd hcollecting leave_not_collecting
      · cases hapi : w.observedApiBase with
        | none => exact .inl rfl
        | some base =>
            obtain ⟨url, hurl, hsame⟩ := hseen.api base hapi
            exact .inr ⟨url, List.mem_append_left _ hurl, hsame⟩
      · change Runs.run (callStep ctx.host .hapoalim) w.db _ = _
        rw [hdb]
  | _ => exact h.keeps rfl (fun _ hresult => hresult) rfl

/-- The calls of one collection. -/
structure CollectionCalls (ctx : RunContext) (calls : List InvestmentCall) : Prop where
  few : calls.length ≤ 2
  made : ∀ call ∈ calls,
    (∃ snapshot, call.op = .applySnapshot snapshot ∧ Collects ctx.host .hapoalim snapshot) ∨
      ∃ failure, call.op = .recordFailure failure

/-- A collected snapshot is one of the collector. -/
theorem collectedSnapshot_collects {settings : HapoalimInvestmentsConfig} {base : String}
    {answers : CollectionAnswers} {snapshot : InvestmentSnapshot}
    (h : collectedSnapshot ctx settings base answers = .ok snapshot) :
    Collects ctx.host .hapoalim snapshot := by
  unfold collectedSnapshot at h
  split at h
  · split_ifs at h
    · cases h
    · obtain ⟨read, -, hbuilt⟩ := Transactional.except_bind_ok.mp h
      exact .hapoalim hbuilt
  · cases h

/-- What a collection calls the store for. -/
theorem collectionCalls (ctx : RunContext) (base : String) (answers : CollectionAnswers)
    (db : InvestmentDb) : CollectionCalls ctx (collectHapoalimInvestments ctx base answers db) := by
  have hfailure : ∀ call errorCode, call = collectionFailure answers errorCode →
      ∃ failure, call.op = .recordFailure failure := by
    intro call errorCode hcall
    rw [hcall]
    exact ⟨_, rfl⟩
  have hnone : CollectionCalls ctx [] := ⟨Nat.zero_le 2, fun _ h => absurd h List.not_mem_nil⟩
  unfold collectHapoalimInvestments
  cases ctx.hapoalimInvestments with
  | none => exact hnone
  | some settings =>
      dsimp only
      by_cases hapart : (!settings.enabled || decide (ctx.company ≠ "hapoalim")) = true
      · rw [if_pos hapart]
        exact hnone
      · rw [if_neg hapart]
        cases hsnapshot : collectedSnapshot ctx settings base answers with
        | error error =>
            refine ⟨Nat.le_succ 1, fun call hcall => .inr ?_⟩
            exact hfailure call _ (List.mem_singleton.mp hcall)
        | ok snapshot =>
            have hcollects := collectedSnapshot_collects hsnapshot
            have hboth : ∀ apply : InvestmentCall, apply.op = .applySnapshot snapshot →
                ∀ errorCode, CollectionCalls ctx [apply, collectionFailure answers errorCode] := by
              intro apply hop errorCode
              refine ⟨le_rfl, fun call hcall => ?_⟩
              rcases List.mem_cons.mp hcall with rfl | hlast
              · exact .inl ⟨snapshot, hop, hcollects⟩
              · exact .inr (hfailure call _ (List.mem_singleton.mp hlast))
            dsimp only
            split
            · split_ifs
              · refine ⟨Nat.le_succ 1, fun call hcall => .inl ?_⟩
                rw [List.mem_singleton.mp hcall]
                exact ⟨snapshot, rfl, hcollects⟩
              · exact hboth _ rfl _
            · exact hboth _ rfl _

/-! ## What an outcome says -/

/-- A mapped error is a challenge, or it is what the library said. -/
theorem mapScraperError_cases (errorType errorMessage : Option String) (form : Bool) :
    mapScraperError errorType errorMessage form = (.OTP_REQUIRED, ScrapeErrorType.OTP_REQUIRED.message) ∧
        (form = true ∨ looksLikeOtpChallenge errorMessage = true) ∨
      ∃ type, (errorType.bind fun name => knownTypes.lookup name).getD .GENERIC = type ∧
        mapScraperError errorType errorMessage form = (type, type.message) := by
  unfold mapScraperError
  dsimp only
  split_ifs with hinfers
  · exact .inl ⟨rfl, (Bool.or_eq_true _ _).mp (Bool.and_eq_true_iff.mp hinfers).2⟩
  · exact .inr ⟨_, rfl, rfl⟩

/-- An outcome says what was mapped. -/
theorem mappedFailure_eq {mapped : ScrapeErrorType × String} {type : ScrapeErrorType}
    {message : String} (h : mappedFailure mapped = .failed type message) : mapped = (type, message) := by
  obtain ⟨htype, hmessage⟩ := SourceRunOutcome.failed.inj h
  exact Prod.ext htype hmessage

/-- Nothing that the bank says gets into a message. -/
theorem mapScraperError_fixed {errorType errorMessage : Option String} {form : Bool}
    {type : ScrapeErrorType} {message : String}
    (h : mapScraperError errorType errorMessage form = (type, message)) : message = type.message := by
  rcases mapScraperError_cases errorType errorMessage form with ⟨hotp, -⟩ | ⟨known, -, hknown⟩
  · obtain ⟨rfl, rfl⟩ := Prod.mk.inj (hotp.symm.trans h)
    rfl
  · obtain ⟨rfl, rfl⟩ := Prod.mk.inj (hknown.symm.trans h)
    rfl

example : (mapScraperError (some "GENERIC") (some "https://bank/auth/OTP?id=1") false).1 =
    .OTP_REQUIRED := by decide +kernel

example : (mapScraperError (some "INVALID_PASSWORD") (some "sms") true).1 = .INVALID_PASSWORD := by
  decide +kernel

/-- **The message is fixed** by the type of the error. -/
theorem Explained.fixed {events : List RunEvent} {outcome : SourceRunOutcome}
    (h : Explained ctx events outcome) {type : ScrapeErrorType} {message : String}
    (hfailed : outcome = .failed type message) : message = type.message := by
  cases h with
  | ok result scrapedAt normalized hevent hnormalized => cases hfailed
  | failure errorType errorMessage lastUrl form hevent hurl hform =>
      exact mapScraperError_fixed (mappedFailure_eq hfailed)
  | timedOut form hevent hform => exact mapScraperError_fixed (mappedFailure_eq hfailed)
  | bridge hcause =>
      obtain ⟨rfl, rfl⟩ := SourceRunOutcome.failed.inj hfailed
      rfl
  | fault hfault => cases hfailed

/-- The evidence for an error that parks the company. -/
inductive ParkingEvidence (ctx : RunContext) (events : List RunEvent) : ScrapeErrorType → Prop
  /-- The scraper names it. -/
  | named (name : String) (errorMessage : Option String) (type : ScrapeErrorType)
      (hevent : .libraryEnds (.failure (some name) errorMessage) ∈ events)
      (hname : knownTypes.lookup name = some type) : ParkingEvidence ctx events type
  /-- The form for the code was visible. -/
  | form (hcompany : ctx.company = "hapoalim") (hevent : .otpFormShown ∈ events) :
      ParkingEvidence ctx events .OTP_REQUIRED
  /-- The error or the address of the page speaks of a code. -/
  | words (errorType errorMessage lastUrl : Option String)
      (hevent : .libraryEnds (.failure errorType errorMessage) ∈ events)
      (hurl : ShownUrl events lastUrl)
      (hwords : looksLikeOtpChallenge (some (CompanyRun.failureText errorMessage lastUrl)) = true) :
      ParkingEvidence ctx events .OTP_REQUIRED

/-- **Only what the library said parks a company**, or a challenge. -/
theorem Explained.parks {events : List RunEvent} {outcome : SourceRunOutcome}
    (h : Explained ctx events outcome) {type : ScrapeErrorType} {message : String}
    (hfailed : outcome = .failed type message) (hparks : isParkingError type = true) :
    ParkingEvidence ctx events type := by
  cases h with
  | ok result scrapedAt normalized hevent hnormalized => cases hfailed
  | failure errorType errorMessage lastUrl form hevent hurl hform =>
      have hmapped := mappedFailure_eq hfailed
      rcases mapScraperError_cases errorType (some (CompanyRun.failureText errorMessage lastUrl)) form
        with ⟨hotp, hwhy⟩ | ⟨known, hknown, hmap⟩
      · obtain ⟨rfl, -⟩ := Prod.mk.inj (hotp.symm.trans hmapped)
        rcases hwhy with hshown | hwords
        · exact .form (hform hshown).1 (hform hshown).2
        · exact .words errorType errorMessage lastUrl hevent hurl hwords
      · obtain ⟨rfl, -⟩ := Prod.mk.inj (hmap.symm.trans hmapped)
        cases hlookup : errorType.bind fun name => knownTypes.lookup name with
        | none =>
            rw [hlookup] at hknown
            rw [← hknown] at hparks
            cases hparks
        | some found =>
            rw [hlookup] at hknown
            obtain ⟨name, rfl, hname⟩ := Option.bind_eq_some_iff.mp hlookup
            obtain rfl : found = known := hknown
            exact .named name errorMessage found hevent hname
  | timedOut form hevent hform =>
      have hmapped := mappedFailure_eq hfailed
      rcases mapScraperError_cases (some "TIMEOUT") none form with ⟨hotp, hwhy⟩ | ⟨known, hknown, hmap⟩
      · obtain ⟨rfl, -⟩ := Prod.mk.inj (hotp.symm.trans hmapped)
        rcases hwhy with hshown | hwords
        · exact .form (hform hshown).1 (hform hshown).2
        · cases hwords
      · obtain ⟨rfl, -⟩ := Prod.mk.inj (hmap.symm.trans hmapped)
        have htimeout : ((some "TIMEOUT").bind fun name => knownTypes.lookup name).getD .GENERIC =
            ScrapeErrorType.TIMEOUT := by decide +kernel
        rw [← hknown, htimeout] at hparks
        cases hparks
  | bridge hcause =>
      obtain ⟨rfl, -⟩ := SourceRunOutcome.failed.inj hfailed
      cases hparks
  | fault hfault => cases hfailed

end

/-! ## Any run -/

/-- Two events that tell the checking account the same. -/
def RunEvent.SameChecking : RunEvent → RunEvent → Prop
  | .collected _, .collected _ => True
  | e, e' => e = e'

/-- The run without the store of the investments. -/
def CompanyRun.checking (w : CompanyRun) : CompanyRun := { w with db := emptyInvestmentDb }

/-- The store does not bear on the answer, -/
theorem checking_finishRun (ctx : RunContext) (w : CompanyRun) (db : InvestmentDb)
    (ending : LibraryEnd) :
    ({ w with db }.finishRun ctx ending).checking = (w.finishRun ctx ending).checking := by
  unfold CompanyRun.finishRun
  cases ending with
  | threw => rfl
  | failure errorType errorMessage => rfl
  | success result scrapedAt =>
      dsimp only
      split
      · rfl
      · by_cases hshared : (ctx.sharedInvestments && w.browser.any (·.connected)) = true
        · rw [if_pos hshared, if_pos hshared]
          rfl
        · rw [if_neg hshared, if_neg hshared]
          rfl

/-- nor on when it comes. -/
theorem checking_settle (ctx : RunContext) (w : CompanyRun) (db : InvestmentDb)
    (ending : LibraryEnd) :
    ({ w with db }.settle ctx ending).checking = (w.settle ctx ending).checking := by
  unfold CompanyRun.settle
  dsimp only
  split
  · exact checking_finishRun ctx { w with scrape := .settled } db ending
  · rfl

/-- What the store holds, and how it is collected into, changes nothing else. -/
theorem checking_db (ctx : RunContext) (w : CompanyRun) (db : InvestmentDb) {e e' : RunEvent}
    (hsame : e.SameChecking e') :
    (companyStep ctx { w with db } e').checking = (companyStep ctx w e).checking := by
  cases e with
  | collected answers =>
      cases e' with
      | collected answers' =>
          unfold companyStep
          dsimp only
          split
          · rfl
          · rfl
      | _ => cases hsame
  | launched ok =>
      obtain rfl : RunEvent.launched ok = e' := hsame
      unfold companyStep
      dsimp only
      by_cases hscrape : w.scrape = .launching
      · rw [if_pos hscrape, if_pos hscrape]
        cases ok with
        | false => exact checking_settle ctx w db .threw
        | true =>
            rw [if_pos rfl, if_pos rfl]
            by_cases hcancelled : w.cancelled = true
            · rw [if_pos hcancelled, if_pos hcancelled]
              rfl
            · rw [if_neg hcancelled, if_neg hcancelled]
              rfl
      · rw [if_neg hscrape, if_neg hscrape]
        rfl
  | lateClosed =>
      obtain rfl : RunEvent.lateClosed = e' := hsame
      unfold companyStep
      dsimp only
      by_cases hscrape : w.scrape = .closingLate
      · rw [if_pos hscrape, if_pos hscrape]
        exact checking_settle ctx { w with browser := some ⟨false, false⟩ } db .threw
      · rw [if_neg hscrape, if_neg hscrape]
        rfl
  | opened =>
      obtain rfl : RunEvent.opened = e' := hsame
      unfold companyStep
      dsimp only
      split_ifs
      · rfl
      · rfl
  | gone =>
      obtain rfl : RunEvent.gone = e' := hsame
      rfl
  | disconnected =>
      obtain rfl : RunEvent.disconnected = e' := hsame
      rfl
  | navigated url =>
      obtain rfl : RunEvent.navigated url = e' := hsame
      rfl
  | requested url =>
      obtain rfl : RunEvent.requested url = e' := hsame
      unfold companyStep
      dsimp only
      split_ifs
      · rfl
      · rfl
  | otpFormShown =>
      obtain rfl : RunEvent.otpFormShown = e' := hsame
      unfold companyStep
      dsimp only
      have hform : CompanyRun.watches ctx { w with db } = w.watches ctx := rfl
      rw [hform]
      by_cases hwatches : w.watches ctx = true
      · rw [if_pos hwatches, if_pos hwatches]
        rfl
      · rw [if_neg hwatches, if_neg hwatches]
        rfl
  | libraryEnds ending =>
      obtain rfl : RunEvent.libraryEnds ending = e' := hsame
      unfold companyStep
      dsimp only
      by_cases hscrape : w.scrape = .scraping
      · rw [if_pos hscrape, if_pos hscrape]
        exact checking_settle ctx w db ending
      · rw [if_neg hscrape, if_neg hscrape]
        rfl
  | deadline =>
      obtain rfl : RunEvent.deadline = e' := hsame
      unfold companyStep
      dsimp only
      split
      · split
        · rfl
        · rfl
      · rfl
  | killed connected =>
      obtain rfl : RunEvent.killed connected = e' := hsame
      unfold companyStep
      dsimp only
      split
      · rfl
      · rfl
      · rfl

/-- Two runs of one bank part stay alike in a step, -/
theorem checking_step (ctx : RunContext) {w v : CompanyRun} {e e' : RunEvent}
    (h : v.checking = w.checking) (hsame : e.SameChecking e') :
    (companyStep ctx v e').checking = (companyStep ctx w e).checking := by
  have hv : v = { w with db := v.db } := by
    calc v = { v.checking with db := v.db } := rfl
      _ = { w.checking with db := v.db } := by rw [h]
      _ = { w with db := v.db } := rfl
  rw [hv]
  exact checking_db ctx w v.db hsame

/-- and in a whole run. -/
theorem checking_run (ctx : RunContext) {events events' : List RunEvent}
    (hsame : List.Forall₂ RunEvent.SameChecking events events') {w v : CompanyRun}
    (h : v.checking = w.checking) :
    (Runs.run (companyStep ctx) v events').checking =
      (Runs.run (companyStep ctx) w events).checking := by
  induction hsame generalizing w v with
  | nil => exact h
  | cons hhead htail ih => exact ih (checking_step ctx h hhead)

section
variable {ctx : RunContext} {w : CompanyRun}

/-- What a run keeps at each moment. -/
structure RunInv (ctx : RunContext) (db : InvestmentDb) (events : List RunEvent) (w : CompanyRun) :
    Prop where
  reached : w = Runs.run (companyStep ctx) (startRun ctx db) events
  outcomes : RunOutcomes ctx events w
  progress : RunProgress ctx (startRun ctx db) events w
  store : RunStore ctx db events w

/-- A run that has seen nothing yet, of an outcome that is explained. -/
theorem RunOutcomes.fresh {scrape : ScrapeStage} {stage : RunStage} {logins : Nat} {db : InvestmentDb}
    (hstage : stage = .racing ∨ stage = .returned .threw ∧ ctx.prepared = none) :
    RunOutcomes ctx [] { scrape, stage, logins, db } := by
  refine ⟨fun _ h => ?_, fun h => ?_, fun _ h => ?_, fun h => ?_, fun _ h => ?_⟩
  · cases h
  · cases h
  · cases h
  · rcases hstage with rfl | ⟨rfl, -⟩
    · cases h
    · cases h
  · rcases hstage with rfl | ⟨rfl, hnone⟩
    · cases h
    · obtain rfl := Option.some.inj h
      exact .fault (.inr hnone)

/-- A run at its race. -/
theorem RunProgress.fresh {start : CompanyRun} {scrape : ScrapeStage} {logins : Nat}
    {db : InvestmentDb} (hbegun : ctx.prepared ≠ none)
    (hscrape : scrape = .launching ∧ logins = 0 ∧ ctx.sharedInvestments = true ∨
      scrape = .scraping ∧ logins = 1) :
    RunProgress ctx start [] { scrape, logins, db } := by
  refine ⟨fun _ => ⟨rfl, hscrape.imp And.left And.left⟩, fun _ h => ?_, fun _ _ => rfl, fun h => ?_,
    fun h => ?_, ?_, fun _ _ h => ?_, fun hnone => absurd hnone hbegun⟩
  · cases h
  · rcases hscrape with ⟨-, -, hshared⟩ | ⟨rfl, -⟩
    · exact hshared
    · cases h
  · rcases hscrape with ⟨-, hzero, -⟩ | ⟨rfl, -⟩
    · exact hzero
    · rcases h with h | h
      · cases h
      · cases h
  · change logins ≤ 1
    rcases hscrape with ⟨-, hzero, -⟩ | ⟨-, hone⟩
    · omega
    · omega
  · cases h

/-- A run that never begins. -/
theorem RunProgress.never {start : CompanyRun} {db : InvestmentDb} :
    RunProgress ctx start [] { scrape := .settled, stage := .returned .threw, logins := 0, db } := by
  refine ⟨fun h => ?_, fun _ h => ?_, fun _ h => absurd rfl h, fun h => ?_, fun h => ?_,
    Nat.zero_le 1, fun _ _ _ b hb => ?_, fun _ => ⟨rfl, rfl, rfl, rfl⟩⟩
  · cases h
  · cases h
  · cases h
  · rcases h with h | h
    · cases h
    · cases h
  · cases hb

/-- The invariant holds at the start, -/
theorem runInv_start (ctx : RunContext) (db : InvestmentDb) : RunInv ctx db [] (startRun ctx db) := by
  have hstore : ∀ scrape stage logins, (∀ result, stage ≠ .collecting result) →
      RunStore ctx db [] { scrape, stage, logins, db } := by
    intro scrape stage logins hstage
    exact .untouched (fun result hcollecting => absurd hcollecting (hstage result)) rfl
  suffices hstart : ∀ w, startRun ctx db = w → RunOutcomes ctx [] w ∧
      RunProgress ctx (startRun ctx db) [] w ∧ RunStore ctx db [] w by
    obtain ⟨houtcomes, hprogress, hstored⟩ := hstart _ rfl
    exact ⟨rfl, houtcomes, hprogress, hstored⟩
  intro w hw
  unfold startRun at hw
  split_ifs at hw with hnone hshared
  · rw [Option.isNone_iff_eq_none] at hnone
    rw [← hw]
    exact ⟨.fresh (.inr ⟨rfl, hnone⟩), RunProgress.never, hstore _ _ _ fun _ => RunStage.noConfusion⟩
  · rw [Option.isNone_iff_eq_none] at hnone
    rw [← hw]
    exact ⟨.fresh (.inl rfl), .fresh hnone (.inl ⟨rfl, rfl, hshared⟩),
      hstore _ _ _ fun _ => RunStage.noConfusion⟩
  · rw [Option.isNone_iff_eq_none] at hnone
    rw [← hw]
    exact ⟨.fresh (.inl rfl), .fresh hnone (.inr ⟨rfl, rfl⟩),
      hstore _ _ _ fun _ => RunStage.noConfusion⟩

/-- **One event** keeps what a run keeps. -/
theorem RunInv.step {db : InvestmentDb} {events : List RunEvent} (h : RunInv ctx db events w)
    (event : RunEvent) : RunInv ctx db (events ++ [event]) (companyStep ctx w event) := by
  have heffect := companyStep_effect ctx w event
  have hwaiting : w.stage = .racing → w.scrape ≠ .closingLate := by
    intro hstage hlate
    rcases (h.progress.racing hstage).2 with hlaunching | hscraping
    · rw [hlate] at hlaunching
      cases hlaunching
    · rw [hlate] at hscraping
      cases hscraping
  refine ⟨?_, h.outcomes.step heffect hwaiting h.progress.launching,
    h.progress.step h.reached heffect, h.store.step h.outcomes heffect hwaiting⟩
  rw [Runs.run_append, ← h.reached]
  rfl

/-- and after every run. -/
theorem runInv_run (ctx : RunContext) (db : InvestmentDb) (events : List RunEvent) :
    RunInv ctx db events (Runs.run (companyStep ctx) (startRun ctx db) events) :=
  Runs.run_history (runInv_start ctx db) fun _ event _ _ h => h.step event

/-! ### The profile -/

/-- The locks of a killed Chrome are removed, and nothing else. -/
theorem clearStaleLocks_ok {stuck profile files : List String}
    (h : clearStaleLocks stuck profile = some files) (name : String) :
    name ∈ files ↔ name ∈ profile ∧ name ∉ SINGLETON_FILES := by
  have hloop : ∀ (names profile : List String), names.foldlM (fun files name =>
      if files.contains name && stuck.contains name then none
      else some (files.filter (· ≠ name))) profile = some files →
      (name ∈ files ↔ name ∈ profile ∧ name ∉ names) := by
    intro names
    induction names with
    | nil =>
        intro profile hfold
        obtain rfl := Option.some.inj hfold
        exact ⟨fun hname => ⟨hname, List.not_mem_nil⟩, And.left⟩
    | cons first names ih =>
        intro profile hfold
        rw [List.foldlM_cons] at hfold
        obtain ⟨rest, hrest, hfold⟩ := Option.bind_eq_some_iff.mp hfold
        split_ifs at hrest
        rw [ih rest hfold, ← Option.some.inj hrest, List.mem_filter, decide_eq_true_eq, List.mem_cons,
          not_or, and_assoc]
  exact hloop SINGLETON_FILES profile h

/-- What Chrome finds is the profile without the locks. -/
theorem prepared_ok {files : List String} (h : ctx.prepared = some files) (name : String) :
    name ∈ files ↔ name ∈ ctx.profile ∧ name ∉ SINGLETON_FILES := by
  unfold RunContext.prepared at h
  obtain ⟨cleared, hcleared, h⟩ := Option.bind_eq_some_iff.mp h
  split_ifs at h
  rw [← Option.some.inj h]
  exact clearStaleLocks_ok hcleared name

/-- What holds of a run of `runCompany` at each moment, where the investments were stored
by `before`. -/
structure RunLaw (ctx : RunContext) (before : List InvestmentCall) (start : CompanyRun)
    (events : List RunEvent) (w : CompanyRun) : Prop where
  explained : ∀ outcome, w.stage.decided ctx = some outcome → Explained ctx events outcome
  fixed : ∀ type message, w.stage.decided ctx = some (.failed type message) → message = type.message
  parks : ∀ type message, w.stage.decided ctx = some (.failed type message) →
    isParkingError type = true → ParkingEvidence ctx events type
  final : ∀ outcome, w.stage.decided ctx = some outcome → ∀ later,
    (Runs.run (companyStep ctx) w later).stage.decided ctx = some outcome
  /-- A run begins on a profile without the locks of a killed Chrome, or it does nothing. -/
  begun : ctx.prepared = none ∧ NeverBegun w ∨ ∃ files, ctx.prepared = some files ∧
    ∀ name, name ∈ files ↔ name ∈ ctx.profile ∧ name ∉ SINGLETON_FILES
  /-- `scrape` is called once at most, and not behind the deadline. -/
  login : w.logins ≤ 1 ∧ ∀ event, (companyStep ctx w event).logins ≠ w.logins → w.stage = .racing
  /-- No browser that the run still reaches is left but one that came too late: the run closes
  the one that it launched, and a library's was opened when the run was over. -/
  closed : ctx.screenshotFault = false → ∀ outcome, w.stage = .returned outcome →
    ∀ b ∈ w.browser, b.alive = true → b.connected = true →
      w.scrape = .closingLate ∨ OpenedLate ctx start events
  /-- The investments are collected once at most, into the store and behind a success. -/
  store : ∃ calls, w.db = reachedDb ctx.host .hapoalim (before ++ calls) ∧
    CollectionCalls ctx calls ∧ (calls ≠ [] → ctx.sharedInvestments = true ∧
      ∃ result, w.stage.decided ctx = some (if ctx.screenshotFault then .threw else .ok result))

/-- A login is another one only while the race is on. -/
theorem RunEffect.login {start w' : CompanyRun} {events : List RunEvent} {event : RunEvent}
    (heffect : RunEffect ctx w event w') (h : RunProgress ctx start events w)
    (hlogin : w'.logins ≠ w.logins) : w.stage = .racing := by
  cases heffect with
  | launched hscrape hcancelled =>
      refine h.cancelled hcancelled ?_
      rw [hscrape]
      exact ScrapeStage.noConfusion
  | finished _ ending hstage hending => exact hstage
  | finishedLate v hstage hscrape => exact hstage
  | _ => exact absurd rfl hlogin

/-- The invariant gives the law. -/
theorem RunInv.law {before : List InvestmentCall} {events : List RunEvent}
    (h : RunInv ctx (reachedDb ctx.host .hapoalim before) events w) :
    RunLaw ctx before (startRun ctx (reachedDb ctx.host .hapoalim before)) events w where
  explained := h.outcomes.explained
  fixed _ _ hdecided := (h.outcomes.explained _ hdecided).fixed rfl
  parks _ _ hdecided := (h.outcomes.explained _ hdecided).parks rfl
  final _ hdecided later := decided_run hdecided later
  begun := by
    cases hprepared : ctx.prepared with
    | none => exact .inl ⟨rfl, h.progress.neverBegun hprepared⟩
    | some files => exact .inr ⟨files, rfl, prepared_ok hprepared⟩
  login := ⟨h.progress.logins, fun event => (companyStep_effect ctx w event).login h.progress⟩
  closed := h.progress.closed
  store := by
    rcases h.store.collected with hsame | ⟨answers, base, result, -, -, hshared, hdecided, hdb⟩
    · refine ⟨[], ?_, ⟨Nat.zero_le 2, fun _ hcall => absurd hcall List.not_mem_nil⟩, fun hne => ?_⟩
      · rw [hsame, List.append_nil]
      · exact absurd rfl hne
    · refine ⟨_, ?_, collectionCalls ctx base answers (reachedDb ctx.host .hapoalim before),
        fun _ => ⟨hshared, result, hdecided⟩⟩
      rw [hdb]
      exact (Runs.run_append _ _ _ _).symm

end

/-- **A run of the scraper.**  Whatever the browser, the scraper, the deadline and the
securities page do, and in whatever order: the outcome is decided once and for all, by
what the scraper said or by the deadline; its message is a fixed text, and an error that
parks the company has its evidence, as an internal error has its cause; `scrape` is called at
most once and never behind the deadline, on a profile without stale locks; no browser that the
run could close is left; and the investments, however their collection ends, are no part of the
outcome. -/
theorem company_run (ctx : RunContext) (before : List InvestmentCall) (events : List RunEvent) :
    RunLaw ctx before (startRun ctx (reachedDb ctx.host .hapoalim before)) events
        (Runs.run (companyStep ctx) (startRun ctx (reachedDb ctx.host .hapoalim before)) events) ∧
      ∀ events', List.Forall₂ RunEvent.SameChecking events events' →
        (Runs.run (companyStep ctx)
          (startRun ctx (reachedDb ctx.host .hapoalim before)) events').checking =
        (Runs.run (companyStep ctx)
          (startRun ctx (reachedDb ctx.host .hapoalim before)) events).checking :=
  ⟨(runInv_run ctx _ events).law, fun _ hsame => checking_run ctx hsame rfl⟩

end SimplefinBridge
