import SimplefinBridge.AccessUrl
import SimplefinBridge.InvestmentFeed
import SimplefinBridge.RuntimeExclusion
import SimplefinBridge.Library.JsonTexts

/-!
# The investment routes

The routers of the feed and of the control interface over the runtime they
belong to.  Each has a capability of its own: the read token, the control token,
and neither is the Basic credential of a consumer.  A request without the
capability learns nothing of the runtime and changes nothing; one with it does
to the runtime what the command it spells does, so that a run with requests is a
run of the runtime (`investment_access`).

A request for the status may await the receiver of text messages.  It is kept
among the waiting requests of the process until the receiver answers.
-/

namespace SimplefinBridge

/-! ## Requests and responses -/

/-- The routes of both routers, and any other path of the control router. -/
inductive InvestmentEndpoint
  | feed
  | sessionStatus
  | status
  | refresh
  | startRecovery
  | submitCode (challengeId : String)
  | cancelRecovery (challengeId : String)
  | otherControl
  deriving DecidableEq, Repr

structure InvestmentRequest where
  endpoint : InvestmentEndpoint
  /-- The `Authorization` header. -/
  authorization : Option String := none
  /-- The `Origin` header of a browser. -/
  origin : Option String := none
  /-- `new URL(url).search` -/
  search : String := ""
  /-- The `X-Investment-Provider` header. -/
  provider : Option String := none
  body : List Char := []
  deriving DecidableEq, Repr

/-- `getClalSessionStatus` -/
structure SessionReport where
  state : ClalSessionState
  observedAt : Instant
  keepAliveEnabled : Bool
  keepAliveMinutes : Nat
  expired : Bool
  overdue : Bool
  verifiedActive : Bool
  deriving DecidableEq, Repr

/-- The reasons of `GoogleMessagesHealth`, and the two of the status. -/
inductive OtpReason
  | ready | connecting | disconnected | inactive | phone_unavailable | phone_syncing
  | reauth_required | unavailable | not_configured | rate_limited
  deriving DecidableEq, Repr

/-- `GoogleMessagesHealth` -/
structure GoogleMessagesHealth where
  ready : Bool
  reason : OtpReason
  deriving DecidableEq, Repr

structure CollectionReport where
  running : Bool
  lastResult : Option CollectionStatus
  lastStartedAt : Option Instant
  lastFinishedAt : Option Instant
  deriving DecidableEq, Repr

structure ScheduleReport where
  enabled : Bool
  expression : JsText
  description : Option JsText
  timezone : JsText
  nextRunAt : Option Instant
  deriving DecidableEq, Repr

structure AutomaticOtpReport where
  enabled : Bool
  ready : Bool
  reason : OtpReason
  nextAllowedAt : Option String
  deriving DecidableEq, Repr

structure InvestmentControlStatus where
  observedAt : Instant
  source : InvestmentSourceState
  collection : CollectionReport
  schedule : ScheduleReport
  automaticOtp : AutomaticOtpReport
  session : SessionReport
  manualVerificationAvailable : Bool
  /-- The recovery of the runtime, or the last that is stored. -/
  recovery : Option (ManualRecoveryStatus ⊕ RecoveryStatus)
  deriving DecidableEq, Repr

inductive InvestmentBody
  | feed (feed : InvestmentFeed)
  | session (report : SessionReport)
  | status (status : InvestmentControlStatus)
  | started
  | alreadyRunning
  | rateLimited (retryAfterSeconds : Int)
  | recovery (status : ManualRecoveryStatus)
  | storedRecovery (status : RecoveryStatus)
  | error (code : String)
  deriving DecidableEq, Repr

structure InvestmentResponse where
  status : Nat
  /-- The headers beside `Cache-Control: no-store`. -/
  headers : List (String × String)
  body : InvestmentBody
  deriving DecidableEq, Repr

/-- What a request asks of the runtime. -/
inductive ControlCommand
  | refresh (provider : String)
  | start (provider requestId : String)
  | submit (provider challengeId code : String)
  | cancel (provider challengeId : String)
  deriving DecidableEq, Repr

/-! ## Capabilities -/

/-- `/^bearer (?<token>\S+)$/i` -/
def bearerToken (header : String) : Option String :=
  let token := header.toList.drop 7
  if (header.toList.take 7).map Char.toLower = "bearer ".toList ∧ token ≠ [] ∧
      token.all (fun c => !isJsSpace c) = true then some (String.ofList token)
  else none

/-- A token that a router can be configured with. -/
def isUsableToken (token : Option String) : Bool :=
  token.any fun token => 32 ≤ jsLength token && !token.toList.any isJsSpace

section
variable {ι : Type} (options : RuntimeOptions ι)

/-- The comparison of the digests, and `Boolean(match)`. -/
def isAuthorized (token : Option String) (header : Option String) : Bool :=
  (header.bind bearerToken).any fun presented =>
    options.host.sha256 presented = options.host.sha256 (token.getD "")

def controlConfigured : Bool :=
  isUsableToken options.controlToken &&
    options.host.sha256 (options.controlToken.getD "") ≠ options.host.sha256 (options.readToken.getD "")

/-! ## The feed -/

def getClalSessionStatus (state : ClalSessionState) (now : Instant) (intervalMinutes : Nat) :
    SessionReport :=
  let expired := (state.expiresAt.bind dateParse).any (· ≤ now)
  let overdue := 0 < intervalMinutes && (state.lastCheckedAt.isNone ||
    (state.lastCheckedAt.bind dateParse).any fun checked => now - checked > intervalMinutes * 60000)
  let checked := (state.lastCheckedAt.bind dateParse).any (· ≤ now)
  { state
    observedAt := now
    keepAliveEnabled := 0 < intervalMinutes
    keepAliveMinutes := intervalMinutes
    expired
    overdue
    verifiedActive := state.status = .active && checked && state.expiresAt.isSome && !expired &&
      !overdue }

def feedUnavailable : InvestmentResponse := ⟨503, [], .error "investment_feed_unavailable"⟩

def bearerForbidden (realm : String) : InvestmentResponse :=
  ⟨403, [("WWW-Authenticate", "Bearer realm=\"" ++ realm ++ "\"")], .error "forbidden"⟩

/-- A read of the store, or the answer to its failure; a store that is closed
throws. -/
def readResponse {ε α : Type} (failure : InvestmentResponse)
    (program : EStateM ε (Statements.Session InvestmentDb) α) (present : α → InvestmentBody)
    (w : InvestmentRuntime ι) : InvestmentResponse × InvestmentRuntime ι :=
  if w.storeClosed then (failure, w)
  else
    match program w.session with
    | .ok a session => (⟨200, [], present a⟩, { w with session })
    | .error _ session => (failure, { w with session })

/-- The routes of `createInvestmentRouter`. -/
def serveFeed (sessionStatus : Bool) (request : InvestmentRequest) (now : Instant)
    (w : InvestmentRuntime ι) : InvestmentResponse × InvestmentRuntime ι :=
  if !isUsableToken options.readToken || !options.storeOpened then (feedUnavailable, w)
  else if !isAuthorized options options.readToken request.authorization then
    (bearerForbidden "investments", w)
  else if sessionStatus then
    readResponse feedUnavailable getSessionState (fun state =>
      .session (getClalSessionStatus state now options.sessionKeepAliveMinutes)) w
  else
    readResponse feedUnavailable (getFeed options.host options.provider now options.staleHours) .feed w

/-! ## The control interface -/

def controlUnavailable : InvestmentResponse := ⟨503, [], .error "investment_control_unavailable"⟩

def invalidRequest : InvestmentResponse := ⟨400, [], .error "invalid_request"⟩

/-- What the middleware of the control router answers itself. -/
def controlRefusal (request : InvestmentRequest) : Option InvestmentResponse :=
  if !controlConfigured options then some controlUnavailable
  else if !isAuthorized options options.controlToken request.authorization then
    some (bearerForbidden "investment-control")
  else if request.origin.any (· ≠ "") then some ⟨403, [], .error "forbidden"⟩
  else if request.search ≠ "" then some invalidRequest
  else none

/-! ### The status -/

/-- `manualRecovery?.status() ?? store.getLatestManualRecoveryRequest() ?? null` -/
def recoveryShown (w : InvestmentRuntime ι) :
    InvestmentM (Option (ManualRecoveryStatus ⊕ RecoveryStatus)) :=
  match w.currentRecovery with
  | some r => pure (some (.inl r.status))
  | none => do return (← getLatestManualRecoveryRequest options.host).map .inr

/-- The status that is made of what has been read. -/
def presentStatus (health : GoogleMessagesHealth) (now : Instant) (w : InvestmentRuntime ι)
    (nextAllowedAt : Option String) (source : InvestmentSourceState) (state : ClalSessionState)
    (recovery : Option (ManualRecoveryStatus ⊕ RecoveryStatus)) : InvestmentControlStatus where
  observedAt := now
  source
  collection := {
    running := w.work.running.isSome
    lastResult := w.lastResult
    lastStartedAt := w.lastStartedAt
    lastFinishedAt := w.lastFinishedAt }
  schedule := {
    enabled := w.task.isSome
    expression := options.schedule.slice 256
    description := options.scheduleDescription.map (·.slice 256)
    timezone := options.timezone.slice 100
    nextRunAt := w.task.bind fun _ => options.nextRun now }
  automaticOtp := {
    enabled := options.googleMessagesOtpSocket.isSome
    ready := health.ready && nextAllowedAt.isNone
    reason := if options.googleMessagesOtpSocket.isSome && nextAllowedAt.isSome then .rate_limited
      else health.reason
    nextAllowedAt := options.googleMessagesOtpSocket.bind fun _ => nextAllowedAt }
  session := getClalSessionStatus state now options.sessionKeepAliveMinutes
  manualVerificationAvailable := InvestmentRuntime.manualVerificationAvailable options
  recovery

/-- `store.getFeed(observedAt, config.staleHours).source` -/
def readSource (now : Instant) :
    EStateM FeedError (Statements.Session InvestmentDb) InvestmentSourceState := do
  return (← getFeed options.host options.provider now options.staleHours).source

/-- What `controlStatus` reads once it knows the receiver's health. -/
def controlStatus (health : GoogleMessagesHealth) (now : Instant) (w : InvestmentRuntime ι) :
    EStateM FeedError (Statements.Session InvestmentDb) InvestmentControlStatus := do
  let nextAllowedAt ← EStateM.adaptExcept .store (getAutomaticSmsNextAllowedAt (toIsoString now))
  let source ← readSource options now
  let state ← EStateM.adaptExcept .store getSessionState
  let recovery ← EStateM.adaptExcept .store (recoveryShown options w)
  return presentStatus options health now w nextAllowedAt source state recovery

/-- A request for the status goes on with the receiver's health. -/
def statusResponse (health : GoogleMessagesHealth) (now : Instant) (w : InvestmentRuntime ι) :
    InvestmentResponse × InvestmentRuntime ι :=
  readResponse controlUnavailable (controlStatus options health now w) .status w

/-- `GET /status`, up to the await of the receiver, if one is configured. -/
def serveStatus (now : Instant) (w : InvestmentRuntime ι) :
    Option InvestmentResponse × InvestmentRuntime ι :=
  if w.work.closed || !options.storeOpened then (some controlUnavailable, w)
  else if options.googleMessagesOtpSocket.isSome then (none, w)
  else
    let outcome := statusResponse options ⟨false, .not_configured⟩ now w
    (some outcome.1, outcome.2)

end

/-- `\s*` -/
def skipSpaces (text : List Char) : List Char := text.dropWhile isJsSpace

/-- A literal at the front of a text. -/
def expectText (literal text : List Char) : Option (List Char) :=
  if literal.isPrefixOf text then some (text.drop literal.length) else none

/-- `/^\s*\{\s*\}\s*$/` -/
def isEmptyObject (body : List Char) : Bool :=
  (do
    let rest ← expectText ['\x7b'] (skipSpaces body)
    let rest ← expectText ['\x7d'] (skipSpaces rest)
    return decide (skipSpaces rest = [])).getD false

/-- `/^\s*\{\s*"code"\s*:\s*"(?<code>\d{6})"\s*\}\s*$/` -/
def submittedCode (body : List Char) : Option String := do
  let rest ← expectText ['\x7b'] (skipSpaces body)
  let rest ← expectText "\"code\"".toList (skipSpaces rest)
  let rest ← expectText [':'] (skipSpaces rest)
  let rest ← expectText ['"'] (skipSpaces rest)
  let code := rest.take 6
  let rest ← expectText ['"'] (rest.drop 6)
  let rest ← expectText ['\x7d'] (skipSpaces rest)
  if skipSpaces rest = [] ∧ code.length = 6 ∧ code.all Char.isDigit = true then
    some (String.ofList code)
  else none

/-- The text of code units that are all ASCII. -/
def asciiText (units : List Nat) : Option String :=
  if units.all (· < 128) then some (String.ofList (units.map Char.ofNat)) else none

/-- `z.strictObject({requestId: …})` of `JSON.parse`: no other name, and the last
member counts. -/
def requestedId (body : List Char) : Option String :=
  match JsonTexts.parseText body with
  | some (.object members) =>
      if members.all fun member => member.1 = .string ("requestId".toList.map Char.toNat) then
        match members.getLast? with
        | some (_, .scalar (.string units)) => asciiText units
        | _ => none
      else none
  | _ => none

/-- The command that the body of a request spells. -/
def controlCommand (host : Host) (request : InvestmentRequest) : Option ControlCommand :=
  let provider := request.provider.getD ""
  if 128 < (TextCodecs.utf8Encode request.body).length then none
  else
    match request.endpoint with
    | .refresh =>
        if request.body = [] ∨ isEmptyObject request.body = true then some (.refresh provider) else none
    | .startRecovery =>
        ((requestedId request.body).filter host.isUuid).map fun id =>
          .start provider (host.toLowerCase id)
    | .submitCode challengeId =>
        if host.isUuid challengeId then
          (submittedCode request.body).map (.submit provider (host.toLowerCase challengeId))
        else none
    | .cancelRecovery challengeId =>
        if host.isUuid challengeId ∧ (request.body = [] ∨ isEmptyObject request.body = true) then
          some (.cancel provider (host.toLowerCase challengeId))
        else none
    | .feed | .sessionStatus | .status | .otherControl => none

def rateLimitedResponse (retryAfterSeconds : Int) : InvestmentResponse :=
  ⟨429, [("Retry-After", toString retryAfterSeconds)], .rateLimited retryAfterSeconds⟩

def identityMismatch : InvestmentResponse := ⟨409, [], .error "source_identity_mismatch"⟩

def refreshResponse : InvestmentRuntime.RefreshAnswer → InvestmentResponse
  | .started => ⟨202, [], .started⟩
  | .alreadyRunning => ⟨202, [], .alreadyRunning⟩
  | .rateLimited seconds => rateLimitedResponse seconds
  | .identityMismatch => identityMismatch
  | .unavailable => controlUnavailable

/-- The status that goes with an error of a recovery. -/
def recoveryErrorResponse : ManualRecoveryError → InvestmentResponse
  | .recovery_not_found => ⟨404, [], .error "recovery_not_found"⟩
  | .recovery_expired => ⟨410, [], .error "recovery_expired"⟩
  | .recovery_not_waiting => ⟨409, [], .error "recovery_not_waiting"⟩
  | .recovery_in_progress => ⟨409, [], .error "recovery_in_progress"⟩

def recoveryResponse (success : Nat) : InvestmentRuntime.RecoveryAnswer → InvestmentResponse
  | .recovery status => ⟨success, [], .recovery status⟩
  | .stored status => ⟨success, [], .storedRecovery status⟩
  | .refused error => recoveryErrorResponse error
  | .rateLimited seconds => rateLimitedResponse seconds
  | .identityMismatch => identityMismatch
  | .unavailable => controlUnavailable

namespace ControlCommand

variable {ι : Type} (options : RuntimeOptions ι)

/-- The act of the runtime that a command is. -/
def act : ControlCommand → RuntimeAct ι
  | .refresh provider => .controlRefresh provider
  | .start provider requestId => .controlStartRecovery provider requestId
  | .submit provider challengeId code => .controlRecoveryAction provider challengeId (some code)
  | .cancel provider challengeId => .controlRecoveryAction provider challengeId none

open InvestmentRuntime in
def run (command : ControlCommand) (now : Instant) (w : InvestmentRuntime ι) :
    InvestmentResponse × InvestmentRuntime ι :=
  match command with
  | .refresh provider =>
      let outcome := controlRefresh options provider now w
      (refreshResponse outcome.2, outcome.1)
  | .start provider requestId =>
      let outcome := controlStartRecovery options provider requestId now w
      (recoveryResponse 202 outcome.2, outcome.1)
  | .submit provider challengeId code =>
      let outcome := controlRecoveryAction options provider challengeId (some code) now w
      (recoveryResponse 202 outcome.2, outcome.1)
  | .cancel provider challengeId =>
      let outcome := controlRecoveryAction options provider challengeId none now w
      (recoveryResponse 200 outcome.2, outcome.1)

end ControlCommand

/-- A process that serves the routes. -/
structure InvestmentServer (ι : Type) where
  runtime : InvestmentRuntime ι
  /-- The requests for the status that await the receiver. -/
  waiting : List InvestmentRequest := []

/-- What happens in the process. -/
inductive HostedEvent (ι : Type)
  | own (event : RuntimeEvent ι)
  | received (request : InvestmentRequest) (now : Instant) (faults : List Bool)
  /-- The receiver answers a waiting request. -/
  | receiverAnswers (index : Nat) (health : GoogleMessagesHealth) (now : Instant) (faults : List Bool)

section
variable {ι : Type} (options : RuntimeOptions ι)

/-- The routes of `createInvestmentControlRouter`; no response where one awaits
the receiver. -/
def serveControl (request : InvestmentRequest) (now : Instant) (w : InvestmentRuntime ι) :
    Option InvestmentResponse × InvestmentRuntime ι :=
  match controlRefusal options request with
  | some refusal => (some refusal, w)
  | none =>
      if request.endpoint = .otherControl then (some ⟨404, [], .error "not_found"⟩, w)
      else if request.endpoint = .status then serveStatus options now w
      else
        match controlCommand options.host request with
        | none => (some invalidRequest, w)
        | some command =>
            let outcome := command.run options now w
            (some outcome.1, outcome.2)

def serveInvestments (request : InvestmentRequest) (now : Instant) (w : InvestmentRuntime ι) :
    Option InvestmentResponse × InvestmentRuntime ι :=
  if request.endpoint = .feed ∨ request.endpoint = .sessionStatus then
    let outcome := serveFeed options (request.endpoint = .sessionStatus) request now w
    (some outcome.1, outcome.2)
  else serveControl options request now w

/-- The statements that the database refuses next. -/
def InvestmentRuntime.facing (faults : List Bool) (w : InvestmentRuntime ι) : InvestmentRuntime ι :=
  { w with session := ⟨w.session.store, faults⟩ }

def hostedStep (s : InvestmentServer ι) : HostedEvent ι → InvestmentServer ι
  | .own event => { s with runtime := runtimeStep options s.runtime event }
  | .received request now faults =>
      let outcome := serveInvestments options request now (s.runtime.facing faults)
      { runtime := outcome.2
        waiting := if outcome.1.isNone then s.waiting ++ [request] else s.waiting }
  | .receiverAnswers index health now faults =>
      if index < s.waiting.length then
        { runtime := (statusResponse options health now (s.runtime.facing faults)).2
          waiting := s.waiting.eraseIdx index }
      else s

/-- The command that a request may give, where the middleware lets it. -/
def admittedCommand (request : InvestmentRequest) : Option ControlCommand :=
  if request.endpoint = .feed ∨ request.endpoint = .sessionStatus then none
  else if (controlRefusal options request).isSome then none
  else controlCommand options.host request

/-- The event of the runtime that an event is. -/
def HostedEvent.runtimeEvent : HostedEvent ι → Option (RuntimeEvent ι)
  | .own event => some event
  | .received request now faults =>
      (admittedCommand options request).map fun command => ⟨command.act, now, faults⟩
  | .receiverAnswers _ _ _ _ => none

end

end SimplefinBridge
