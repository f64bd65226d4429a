import SimplefinBridge.InvestmentSchema
import SimplefinBridge.OtpDelivery

/-!
# The exchange of a one-time code

A login that needs a code talks to the receiver over its socket: `prepare` arms a
lease before the browser asks for the text message, `read` polls until the code
comes, and `cancel` gives the lease back.  Here any number of logins run against
the broker at once.  A request is two steps, the receiver's answer and its arrival;
between them the clock moves, the receiver restarts and other logins go on.  An
answer can be lost, the request that gives a lease back can get through or not, and
whoever else reaches the socket can arm, wait and cancel (`.receiver`).

`otp_exchange` follows a code from the message to the login that returns it.
-/

namespace SimplefinBridge

/-! ## The login's side -/

/-- 1970, from the zero time of the receiver. -/
def unixEpoch : Int := 62135596800 * goSecond

/-- A time as `Date.parse` and `Date.now` count it. -/
def jsMillis (t : Int) : Int := (t - unixEpoch) / 1000000

/-- `^[\w-]{20,128}$` -/
def isRequestId (id : String) : Bool :=
  20 ≤ id.toList.length && id.toList.length ≤ 128 &&
    id.toList.all fun c => c.isAlphanum || c = '_' || c = '-'

/-- Where `read` stands. -/
inductive OtpReading
  | idle
  /-- A wait request is open; the receiver may have answered. -/
  | asking (reply : Option WaitReply)
  | pausing
  | done (result : Except InvestmentErrorCode String)

/-- What `prepare` returns. -/
structure OtpRequest where
  requestId : String
  expiresAt : Int
  canceled : Bool := false
  reading : OtpReading := .idle

/-- Where the request of a login stands. -/
inductive OtpLoginPhase
  | unused
  | arming (reply : Option ArmReply)
  | failed (error : InvestmentErrorCode)
  | armed (request : OtpRequest)

/-- One call of `prepare`, and what is done with its result. -/
structure OtpLogin where
  provider : OtpProvider := .clal
  startedAt : Int := 0
  phase : OtpLoginPhase := .unused

/-- `prepare` with the lease that the receiver granted. -/
def checkArmed (startedAt now : Int) (aborted : Bool) (lease : Lease) :
    Except InvestmentErrorCode OtpRequest :=
  let armedAt := jsMillis lease.armedAt
  let expiresAt := jsMillis lease.expiresAt
  if !isRequestId lease.id then .error .INVALID_RESPONSE
  else if armedAt < startedAt - 1000 ∨ now + 1000 < armedAt ∨ expiresAt ≤ now ∨
      expiresAt ≤ armedAt ∨ 180000 < expiresAt - armedAt then .error .INVALID_RESPONSE
  else if aborted then .error .TIMEOUT
  else .ok { requestId := lease.id, expiresAt }

/-- `prepare` with the receiver's answer. -/
def armArrived (startedAt now : Int) (aborted : Bool) : ArmReply → OtpLoginPhase
  | .granted lease =>
      match checkArmed startedAt now aborted lease with
      | .ok request => .armed request
      | .error error => .failed error
  | _ => .failed .OTP_REQUIRED

/-- The head of the loop of `read`. -/
def ask (now : Int) (aborted : Bool) (request : OtpRequest) : OtpReading :=
  if aborted || request.canceled || request.expiresAt ≤ now then .done (.error .TIMEOUT)
  else .asking none

/-- `read` with the receiver's answer. -/
def waitArrived (now : Int) (aborted : Bool) (request : OtpRequest) : WaitReply → OtpReading
  | reply =>
      if aborted || request.canceled || request.expiresAt ≤ now then .done (.error .TIMEOUT)
      else
        match reply with
        | .pending => .pausing
        | .code lease =>
            if lease.id ≠ request.requestId ∨ jsMillis lease.expiresAt ≠ request.expiresAt ∨
                isOtpCode lease.code = false then .done (.error .INVALID_RESPONSE)
            else .done (.ok lease.code)
        | _ => .done (.error .OTP_REQUIRED)

/-- The login waits for the answer to its arm request. -/
def OtpLoginPhase.awaitsArm : OtpLoginPhase → Bool
  | .arming none => true
  | _ => false

/-- The login waits for its code. -/
def OtpReading.awaitsCode : OtpReading → Bool
  | .asking none => true
  | _ => false

/-- What `read` returned. -/
def OtpReading.code : OtpReading → Option String
  | .done (.ok code) => some code
  | _ => none

/-- The code that the login was given. -/
def OtpLogin.code (login : OtpLogin) : Option String :=
  match login.phase with
  | .armed request => request.reading.code
  | _ => none

/-- What happens to a login. -/
inductive OtpLoginEvent
  | prepare (provider : OtpProvider) (aborted : Bool)
  | armArrives (aborted : Bool)
  /-- No answer to the arm request, or none that is one. -/
  | armFails (error : InvestmentErrorCode)
  | read (aborted : Bool)
  | waitArrives (aborted : Bool)
  | waitFails (error : InvestmentErrorCode)
  | pauseEnds (aborted : Bool)
  | cancel

/-- The reading of an armed request goes on. -/
def OtpLogin.setReading (login : OtpLogin) (request : OtpRequest) (reading : OtpReading) :
    OtpLogin :=
  { login with phase := .armed { request with reading } }

/-- One step of a login; an event that it is not waiting for does nothing. -/
def loginStep (now : Int) (login : OtpLogin) : OtpLoginEvent → OtpLogin
  | .prepare provider aborted =>
      match login.phase with
      | .unused => ⟨provider, now, if aborted then .failed .TIMEOUT else .arming none⟩
      | _ => login
  | .armArrives aborted =>
      match login.phase with
      | .arming (some reply) => { login with phase := armArrived login.startedAt now aborted reply }
      | _ => login
  | .armFails error =>
      match login.phase with
      | .arming _ => { login with phase := .failed error }
      | _ => login
  | .read aborted =>
      match login.phase with
      | .armed request =>
          match request.reading with
          | .idle =>
              -- a canceled request is refused without a trace
              if request.canceled then login else login.setReading request (ask now aborted request)
          | _ => login
      | _ => login
  | .waitArrives aborted =>
      match login.phase with
      | .armed request =>
          match request.reading with
          | .asking (some reply) => login.setReading request (waitArrived now aborted request reply)
          | _ => login
      | _ => login
  | .waitFails error =>
      match login.phase with
      | .armed request =>
          match request.reading with
          | .asking _ => login.setReading request (.done (.error error))
          | _ => login
      | _ => login
  | .pauseEnds aborted =>
      match login.phase with
      | .armed request =>
          match request.reading with
          | .pausing => login.setReading request (ask now aborted request)
          | _ => login
      | _ => login
  | .cancel =>
      match login.phase with
      | .armed request => { login with phase := .armed { request with canceled := true } }
      | _ => login

/-! ## Logins and the receiver -/

/-- The receiver and all logins. -/
structure OtpExchange where
  receiver : OtpWorld
  logins : Nat → OtpLogin := fun _ => {}

/-- What happens between them. -/
inductive ExchangeEvent
  /-- A step of the receiver that answers no login. -/
  | receiver (event : OtpEvent)
  | login (n : Nat) (event : OtpLoginEvent)
  /-- The handler of the login's arm request commits. -/
  | armAnswered (n handler : Nat) (random : Option String)
  /-- The handler of the login's wait request looks; with `timedOut` its timer is up. -/
  | waitAnswered (n : Nat) (outcome : WriteOutcome) (timedOut : Bool)

/-- What the handler of an arm request answers, and for which provider. -/
def OtpWorld.armReply (w : OtpWorld) (handler : Nat) (random : Option String) :
    Option (OtpProvider × ArmReply) :=
  match w.process, w.arms handler with
  | some b, .committing provider => some (provider, (armCommit w.now provider random b).2)
  | _, _ => none

/-- What a look of `wait` answers. -/
def OtpWorld.waitReply (w : OtpWorld) (provider : OtpProvider) (id : String)
    (outcome : WriteOutcome) : Option WaitReply :=
  w.process.map fun b => (waitOnce w.now provider id outcome w.file b).2.2

namespace OtpExchange

/-- The clock that the logins read, in milliseconds. -/
def now (w : OtpExchange) : Int := jsMillis w.receiver.now

/-- One login has moved. -/
def setLogin (w : OtpExchange) (n : Nat) (login : OtpLogin) : OtpExchange :=
  { w with logins := Function.update w.logins n login }

/-- The receiver has moved. -/
def stepReceiver (host : Host) (w : OtpExchange) (event : OtpEvent) : OtpExchange :=
  { w with receiver := otpStep host w.receiver event }

end OtpExchange

/-- The receiver's answer to the arm request reaches the login's socket. -/
def answerArm (login : OtpLogin) : Option (OtpProvider × ArmReply) → OtpLogin
  | some (provider, reply) =>
      if login.phase.awaitsArm = true ∧ login.provider = provider then
        { login with phase := .arming (some reply) }
      else login
  | none => login

/-- The receiver's answer to the wait request; a waiter without a code sleeps on. -/
def answerWait (login : OtpLogin) (request : OtpRequest) (timedOut : Bool) :
    Option WaitReply → OtpLogin
  | some reply =>
      if reply = .pending ∧ timedOut = false then login
      else login.setReading request (.asking (some reply))
  | none => login

/-- One step of the logins and the receiver. -/
def exchangeStep (host : Host) (w : OtpExchange) : ExchangeEvent → OtpExchange
  | .receiver event => w.stepReceiver host event
  | .login n event => w.setLogin n (loginStep w.now (w.logins n) event)
  | .armAnswered n handler random =>
      (w.stepReceiver host (.armCommit handler random)).setLogin n
        (answerArm (w.logins n) (w.receiver.armReply handler random))
  | .waitAnswered n outcome timedOut =>
      match (w.logins n).phase with
      | .armed request =>
          if request.reading.awaitsCode then
            let provider := (w.logins n).provider
            (w.stepReceiver host (.wait provider request.requestId outcome)).setLogin n
              (answerWait (w.logins n) request timedOut
                (w.receiver.waitReply provider request.requestId outcome))
          else w
      | _ => w

/-! ## What the receiver's steps keep -/

/-- A later time is not an earlier millisecond. -/
theorem jsMillis_mono {t t' : Int} (h : t ≤ t') : jsMillis t ≤ jsMillis t' := by
  unfold jsMillis
  omega

/-- What is never taken back. -/
structure HistoryGrows (r r' : OtpReceiver) : Prop where
  now_le : r.now ≤ r'.now
  grants : ∀ lease ∈ r.grants, lease ∈ r'.grants
  deliveries : ∀ d ∈ r.deliveries, d ∈ r'.deliveries

/-- Nothing has happened. -/
theorem HistoryGrows.refl (r : OtpReceiver) : HistoryGrows r r := ⟨le_rfl, fun _ h => h, fun _ h => h⟩

/-- The receiver forgets nothing of its history. -/
theorem historyGrows_of_effect {host : Host} {r r' : OtpReceiver} {event : OtpEvent}
    (h : OtpEffect host r event r') : HistoryGrows r r' := by
  cases h with
  | idle => exact HistoryGrows.refl r
  | tick elapsed => exact ⟨Int.le_add_of_nonneg_right (Int.natCast_nonneg elapsed),
      fun _ h => h, fun _ h => h⟩
  | started config hnone => exact ⟨le_rfl, fun _ h => h, fun _ h => h⟩
  | stopped _ b hprocess file hfile => exact ⟨le_rfl, fun _ h => h, fun _ h => h⟩
  | quiet _ b b' hprocess hquiet file hfile => exact ⟨le_rfl, fun _ h => h, fun _ h => h⟩
  | taken m b rule r hprocess htakes => exact ⟨le_rfl, fun _ h => h, fun _ h => h⟩
  | armed _ b hprocess honline provider name =>
      exact ⟨le_rfl, fun _ h => List.mem_append_left _ h, fun _ h => h⟩
  | delivered _ b r hprocess hdelivers =>
      exact ⟨le_rfl, fun _ h => h, fun _ h => List.mem_append_left _ h⟩

/-- The id that an event draws. -/
def OtpEvent.draws : OtpEvent → Option String
  | .armCommit _ random => random
  | _ => none

/-- A granted lease has the id that was drawn. -/
theorem armCommit_granted {now : Int} {provider : OtpProvider} {random : Option String}
    {b : Broker} {lease : Lease} (h : (armCommit now provider random b).2 = .granted lease) :
    random = some lease.id ∧ lease.provider = provider ∧ lease.armedAt = now := by
  unfold armCommit at h
  by_cases hoffline : (!b.online) = true
  · rw [if_pos hoffline] at h
    cases h
  rw [if_neg hoffline] at h
  by_cases hactive : (b.request.any fun r => decide (now < r.expiresAt)) = true
  · rw [if_pos hactive] at h
    cases h
  rw [if_neg hactive] at h
  cases random with
  | none => cases h
  | some id =>
      obtain rfl := ArmReply.granted.inj h
      exact ⟨rfl, rfl, rfl⟩

/-- A commit grants what it answers. -/
theorem otpStep_armCommit (host : Host) (w : OtpWorld) (handler : Nat) (random : Option String) :
    (otpStep host w (.armCommit handler random)).grants = w.grants ++
      match w.armReply handler random with
      | some (_, .granted lease) => [lease]
      | _ => [] := by
  unfold otpStep OtpWorld.armReply
  cases hprocess : w.process with
  | none => exact (List.append_nil _).symm
  | some b =>
      unfold brokerStep
      dsimp only
      cases hstage : w.arms handler with
      | committing provider =>
          dsimp only
          cases hreply : (armCommit w.now provider random b).2 with
          | granted lease => rfl
          | receiver_unavailable => exact (List.append_nil _).symm
          | request_active => exact (List.append_nil _).symm
      | idle => exact (List.append_nil _).symm
      | checking provider => exact (List.append_nil _).symm

/-- Where the broker grants nothing, nothing is granted. -/
theorem otpStep_grants_of {host : Host} {w : OtpWorld} {event : OtpEvent}
    (hup : ∀ b, (brokerStep host w b event).grants = w.grants) :
    (otpStep host w event).grants = w.grants ∨ ∃ lease, event.draws = some lease.id ∧
      (otpStep host w event).grants = w.grants ++ [lease] := by
  left
  unfold otpStep
  cases hprocess : w.process with
  | some b => exact hup b
  | none =>
      cases event with
      | tick elapsed => rfl
      | start config => rfl
      | _ => rfl

/-- A step grants at most the lease that it draws. -/
theorem otpStep_grants (host : Host) (w : OtpWorld) (event : OtpEvent) :
    (otpStep host w event).grants = w.grants ∨
      ∃ lease, event.draws = some lease.id ∧ (otpStep host w event).grants = w.grants ++ [lease] := by
  cases event with
  | armCommit handler random =>
      rw [otpStep_armCommit]
      cases hreply : w.armReply handler random with
      | none => exact .inl (List.append_nil _)
      | some answer =>
          obtain ⟨provider, reply⟩ := answer
          cases reply with
          | granted lease => 
              refine .inr ⟨lease, ?_, rfl⟩
              unfold OtpWorld.armReply at hreply
              split at hreply
              · next b provider' hprocess hstage =>
                obtain ⟨rfl, hgranted⟩ := Prod.mk.inj (Option.some.inj hreply)
                exact (armCommit_granted hgranted).1
              · cases hreply
          | receiver_unavailable => exact .inl (List.append_nil _)
          | request_active => exact .inl (List.append_nil _)
  | tick elapsed => exact otpStep_grants_of fun b => rfl
  | start config => exact otpStep_grants_of fun b => rfl
  | stop => exact otpStep_grants_of fun b => rfl
  | stopInWait provider id => exact otpStep_grants_of fun b => rfl
  | setHealth online state => exact otpStep_grants_of fun b => rfl
  | cancel provider id => exact otpStep_grants_of fun b => rfl
  | accept m =>
      refine otpStep_grants_of fun b => ?_
      unfold brokerStep
      dsimp only
      by_cases htook : (accept host w.now m b).2 = true
      · rw [if_pos htook]
        rfl
      · rw [if_neg htook]
  | armCheck client provider =>
      refine otpStep_grants_of fun b => ?_
      unfold brokerStep
      dsimp only
      split_ifs
      · rfl
      · rfl
      · rfl
  | armReady client ready =>
      refine otpStep_grants_of fun b => ?_
      unfold brokerStep
      dsimp only
      cases w.arms client with
      | checking provider => rfl
      | idle => rfl
      | committing provider => rfl
  | wait provider id outcome =>
      refine otpStep_grants_of fun b => ?_
      unfold brokerStep OtpWorld.noteReply
      dsimp only
      cases (waitOnce w.now provider id outcome w.file b).2.2 with
      | code lease => rfl
      | receiver_unavailable => rfl
      | request_gone => rfl
      | ambiguous_code => rfl
      | pending => rfl

/-- A look that answers with a code delivers it. -/
theorem otpStep_wait {host : Host} {w : OtpWorld} {provider : OtpProvider} {id : String}
    {outcome : WriteOutcome} {lease : Lease}
    (h : w.waitReply provider id outcome = some (.code lease)) :
    ∃ d ∈ (otpStep host w (.wait provider id outcome)).deliveries, d.lease = lease := by
  unfold OtpWorld.waitReply at h
  unfold otpStep
  cases hprocess : w.process with
  | none =>
      rw [hprocess] at h
      cases h
  | some b =>
      rw [hprocess] at h
      have hreply : (waitOnce w.now provider id outcome w.file b).2.2 = .code lease :=
        Option.some.inj h
      refine ⟨⟨w.grant, lease⟩, ?_, rfl⟩
      unfold brokerStep
      dsimp only
      rw [hreply]
      exact List.mem_append_right _ List.mem_cons_self

/-! ## What a login knows -/

/-- The lease that the login answers for. -/
def OtpLoginPhase.heldId : OtpLoginPhase → Option String
  | .arming (some (.granted lease)) => some lease.id
  | .armed request => some request.requestId
  | _ => none

/-- A code that was read comes from a delivery. -/
def OtpReading.Delivered (r : OtpReceiver) (id : String) : OtpReading → Prop
  | .asking (some (.code lease)) => ∃ d ∈ r.deliveries, d.lease = lease
  | .done (.ok code) => ∃ d ∈ r.deliveries, d.lease.id = id ∧ d.lease.code = code
  | _ => True

/-- What a login may rely on. -/
structure LoginInv (r : OtpReceiver) (login : OtpLogin) : Prop where
  started : login.phase.awaitsArm = true → login.startedAt ≤ jsMillis r.now
  holds : ∀ id, login.phase.heldId = some id → ∃ lease ∈ r.grants, lease.id = id ∧
    lease.provider = login.provider ∧ login.startedAt ≤ jsMillis lease.armedAt
  delivered : ∀ request, login.phase = .armed request →
    request.reading.Delivered r request.requestId

/-- A delivered code stays delivered. -/
theorem OtpReading.Delivered.mono {r r' : OtpReceiver} {id : String} {reading : OtpReading}
    (h : reading.Delivered r id) (hext : HistoryGrows r r') : reading.Delivered r' id := by
  unfold OtpReading.Delivered at h ⊢
  split
  · obtain ⟨d, hd, hlease⟩ := h
    exact ⟨d, hext.deliveries d hd, hlease⟩
  · obtain ⟨d, hd, hcode⟩ := h
    exact ⟨d, hext.deliveries d hd, hcode⟩
  · trivial

/-- What a login relies on stays true as the receiver goes on. -/
theorem LoginInv.mono {r r' : OtpReceiver} {login : OtpLogin} (h : LoginInv r login)
    (hext : HistoryGrows r r') : LoginInv r' login where
  started hawaits := le_trans (h.started hawaits) (jsMillis_mono hext.now_le)
  holds id hid := by
    obtain ⟨lease, hlease, hrest⟩ := h.holds id hid
    exact ⟨lease, hext.grants lease hlease, hrest⟩
  delivered request hphase := (h.delivered request hphase).mono hext

/-- Nothing has been delivered when a login asks. -/
theorem delivered_ask (r : OtpReceiver) (now : Int) (aborted : Bool) (request : OtpRequest) :
    (ask now aborted request).Delivered r request.requestId := by
  unfold ask
  split_ifs
  · trivial
  · trivial

/-- What arrives is the code of the lease that was asked for. -/
theorem delivered_waitArrived {r : OtpReceiver} {now : Int} {aborted : Bool} {request : OtpRequest}
    {reply : WaitReply} (h : (OtpReading.asking (some reply)).Delivered r request.requestId) :
    (waitArrived now aborted request reply).Delivered r request.requestId := by
  unfold waitArrived
  by_cases hlate : (aborted || request.canceled || decide (request.expiresAt ≤ now)) = true
  · rw [if_pos hlate]
    trivial
  rw [if_neg hlate]
  cases reply with
  | code lease =>
      dsimp only
      by_cases hforeign : lease.id ≠ request.requestId ∨
          jsMillis lease.expiresAt ≠ request.expiresAt ∨ isOtpCode lease.code = false
      · rw [if_pos hforeign]
        trivial
      rw [if_neg hforeign]
      push Not at hforeign
      obtain ⟨d, hd, rfl⟩ := h
      exact ⟨d, hd, hforeign.1, rfl⟩
  | pending => trivial
  | receiver_unavailable => trivial
  | request_gone => trivial
  | ambiguous_code => trivial

/-- A code arrives only while the login still waits for it. -/
theorem waitArrived_ok {now : Int} {aborted : Bool} {request : OtpRequest} {reply : WaitReply}
    {code : String} (h : waitArrived now aborted request reply = .done (.ok code)) :
    aborted = false ∧ request.canceled = false ∧ now < request.expiresAt := by
  unfold waitArrived at h
  by_cases hlate : (aborted || request.canceled || decide (request.expiresAt ≤ now)) = true
  · rw [if_pos hlate] at h
    cases h
  · simpa [and_assoc] using hlate

/-- An accepted lease names the request. -/
theorem checkArmed_id {startedAt now : Int} {aborted : Bool} {lease : Lease} {request : OtpRequest}
    (h : checkArmed startedAt now aborted lease = .ok request) :
    request.requestId = lease.id ∧ request.reading = .idle := by
  unfold checkArmed at h
  dsimp only at h
  split_ifs at h
  obtain rfl := Except.ok.inj h
  exact ⟨rfl, rfl⟩

/-- `prepare` ends with the lease that was granted, or with none. -/
theorem armArrived_cases (startedAt now : Int) (aborted : Bool) (reply : ArmReply) :
    (∃ error, armArrived startedAt now aborted reply = .failed error) ∨
      ∃ lease request, reply = .granted lease ∧ request.requestId = lease.id ∧
        request.reading = .idle ∧ armArrived startedAt now aborted reply = .armed request := by
  cases reply with
  | receiver_unavailable => exact .inl ⟨_, rfl⟩
  | request_active => exact .inl ⟨_, rfl⟩
  | granted lease =>
      unfold armArrived
      dsimp only
      cases hcheck : checkArmed startedAt now aborted lease with
      | error error => exact .inl ⟨error, rfl⟩
      | ok request =>
          obtain ⟨hid, hidle⟩ := checkArmed_id hcheck
          exact .inr ⟨lease, request, rfl, hid, hidle, rfl⟩

/-! ## What a login's step does -/

/-- What an event may do to a login. -/
inductive OtpLoginEffect (now : Int) (login : OtpLogin) : OtpLoginEvent → OtpLogin → Prop
  | idle (event : OtpLoginEvent) : OtpLoginEffect now login event login
  | prepared (provider : OtpProvider) (aborted : Bool) (hphase : login.phase = .unused) :
      OtpLoginEffect now login (.prepare provider aborted)
        ⟨provider, now, if aborted then .failed .TIMEOUT else .arming none⟩
  | arrived (aborted : Bool) (reply : ArmReply) (hphase : login.phase = .arming (some reply)) :
      OtpLoginEffect now login (.armArrives aborted)
        { login with phase := armArrived login.startedAt now aborted reply }
  | failed (error : InvestmentErrorCode) (reply : Option ArmReply)
      (hphase : login.phase = .arming reply) :
      OtpLoginEffect now login (.armFails error) { login with phase := .failed error }
  | asks (event : OtpLoginEvent) (aborted : Bool) (request : OtpRequest)
      (hphase : login.phase = .armed request)
      (hreading : request.reading = .idle ∨ request.reading = .pausing) :
      OtpLoginEffect now login event (login.setReading request (ask now aborted request))
  | received (aborted : Bool) (request : OtpRequest) (reply : WaitReply)
      (hphase : login.phase = .armed request) (hreading : request.reading = .asking (some reply)) :
      OtpLoginEffect now login (.waitArrives aborted)
        (login.setReading request (waitArrived now aborted request reply))
  | waitFailed (error : InvestmentErrorCode) (request : OtpRequest) (reply : Option WaitReply)
      (hphase : login.phase = .armed request) (hreading : request.reading = .asking reply) :
      OtpLoginEffect now login (.waitFails error) (login.setReading request (.done (.error error)))
  | canceled (request : OtpRequest) (hphase : login.phase = .armed request) :
      OtpLoginEffect now login .cancel { login with phase := .armed { request with canceled := true } }

/-- **Every event has such an effect.** -/
theorem loginStep_effect (now : Int) (login : OtpLogin) (event : OtpLoginEvent) :
    OtpLoginEffect now login event (loginStep now login event) := by
  unfold loginStep
  cases event with
  | prepare provider aborted =>
      dsimp only
      split
      · next hphase => exact .prepared provider aborted hphase
      · exact .idle _
  | armArrives aborted =>
      dsimp only
      split
      · next reply hphase => exact .arrived aborted reply hphase
      · exact .idle _
  | armFails error =>
      dsimp only
      split
      · next reply hphase => exact .failed error reply hphase
      · exact .idle _
  | read aborted =>
      dsimp only
      split
      · next request hphase =>
        split
        · next hreading =>
          by_cases hcanceled : request.canceled = true
          · rw [if_pos hcanceled]
            exact .idle _
          · rw [if_neg hcanceled]
            exact .asks _ aborted request hphase (.inl hreading)
        · exact .idle _
      · exact .idle _
  | waitArrives aborted =>
      dsimp only
      split
      · next request hphase =>
        split
        · next reply hreading => exact .received aborted request reply hphase hreading
        · exact .idle _
      · exact .idle _
  | waitFails error =>
      dsimp only
      split
      · next request hphase =>
        split
        · next reply hreading => exact .waitFailed error request reply hphase hreading
        · exact .idle _
      · exact .idle _
  | pauseEnds aborted =>
      dsimp only
      split
      · next request hphase =>
        split
        · next hreading => exact .asks _ aborted request hphase (.inr hreading)
        · exact .idle _
      · exact .idle _
  | cancel =>
      dsimp only
      split
      · next request hphase => exact .canceled request hphase
      · exact .idle _

/-- A login holds no lease but the one it was granted. -/
theorem heldId_armArrived {startedAt now : Int} {aborted : Bool} {reply : ArmReply} {id : String}
    (h : (armArrived startedAt now aborted reply).heldId = some id) :
    (OtpLoginPhase.arming (some reply)).heldId = some id := by
  rcases armArrived_cases startedAt now aborted reply with
    ⟨error, hfailed⟩ | ⟨lease, request, rfl, hid, -, harmed⟩
  · rw [hfailed] at h
    cases h
  · rw [harmed] at h
    rw [← h]
    exact congrArg some hid.symm

/-- A login does not come by an id on its own. -/
theorem OtpLoginEffect.heldId {now : Int} {login login' : OtpLogin} {event : OtpLoginEvent}
    (heffect : OtpLoginEffect now login event login') {id : String}
    (h : login'.phase.heldId = some id) : login.phase.heldId = some id := by
  cases heffect with
  | idle => exact h
  | prepared provider aborted hphase =>
      cases aborted with
      | true => cases h
      | false => cases h
  | arrived aborted reply hphase =>
      rw [hphase]
      exact heldId_armArrived h
  | failed error reply hphase => cases h
  | asks _ aborted request hphase hreading =>
      rw [hphase]
      exact h
  | received aborted request reply hphase hreading =>
      rw [hphase]
      exact h
  | waitFailed error request reply hphase hreading =>
      rw [hphase]
      exact h
  | canceled request hphase =>
      rw [hphase]
      exact h

/-- A step that only reads on knows a lease when the login did. -/
theorem LoginInv.setReading {r : OtpReceiver} {login : OtpLogin} (h : LoginInv r login)
    {request : OtpRequest} (hphase : login.phase = .armed request) {reading : OtpReading}
    (hdelivered : reading.Delivered r request.requestId) :
    LoginInv r (login.setReading request reading) := by
  refine ⟨fun hawaits => absurd hawaits Bool.false_ne_true, fun id hid => h.holds id ?_,
    fun request' hrequest' => ?_⟩
  · rw [hphase]
    exact hid
  · obtain rfl := OtpLoginPhase.armed.inj hrequest'
    exact hdelivered

/-- A login without a lease. -/
theorem LoginInv.vacant {r : OtpReceiver} {login : OtpLogin} (hheld : login.phase.heldId = none)
    (hawaits : login.phase.awaitsArm = true → login.startedAt ≤ jsMillis r.now) :
    LoginInv r login := by
  refine ⟨hawaits, fun id hid => ?_, fun request hrequest => ?_⟩
  · rw [hheld] at hid
    cases hid
  · rw [hrequest] at hheld
    cases hheld

/-- **One step of a login.** -/
theorem LoginInv.step {r : OtpReceiver} {login login' : OtpLogin} {event : OtpLoginEvent}
    (h : LoginInv r login) (heffect : OtpLoginEffect (jsMillis r.now) login event login') :
    LoginInv r login' := by
  cases heffect with
  | idle => exact h
  | prepared provider aborted hphase =>
      cases aborted with
      | true => exact LoginInv.vacant rfl fun hawaits => absurd hawaits Bool.false_ne_true
      | false => exact LoginInv.vacant rfl fun _ => le_rfl
  | arrived aborted reply hphase =>
      rcases armArrived_cases login.startedAt (jsMillis r.now) aborted reply with
        ⟨error, hfailed⟩ | ⟨lease, request, rfl, hid, hidle, harmed⟩
      · rw [hfailed]
        exact LoginInv.vacant rfl fun hawaits => absurd hawaits Bool.false_ne_true
      · rw [harmed]
        refine ⟨fun hawaits => absurd hawaits Bool.false_ne_true, fun id hsame => h.holds id ?_,
          fun request' hrequest' => ?_⟩
        · rw [hphase, ← hsame]
          exact congrArg some hid.symm
        · obtain rfl := OtpLoginPhase.armed.inj hrequest'
          rw [hidle]
          trivial
  | failed error reply hphase =>
      exact LoginInv.vacant rfl fun hawaits => absurd hawaits Bool.false_ne_true
  | asks _ aborted request hphase hreading =>
      exact h.setReading hphase (delivered_ask r _ aborted request)
  | received aborted request reply hphase hreading =>
      apply h.setReading hphase
      apply delivered_waitArrived
      rw [← hreading]
      exact h.delivered request hphase
  | waitFailed error request reply hphase hreading => exact h.setReading hphase trivial
  | canceled request hphase =>
      refine ⟨fun hawaits => absurd hawaits Bool.false_ne_true, fun id hid => h.holds id ?_,
        fun request' hrequest' => ?_⟩
      · rw [hphase]
        exact hid
      · obtain rfl := OtpLoginPhase.armed.inj hrequest'
        exact h.delivered request hphase

/-! ## The invariant -/

/-- The invariant of the exchange. -/
structure ExchangeInv (host : Host) (timestampOf : String → Int) (drawn : List String)
    (w : OtpExchange) : Prop where
  receiver : OtpReceiver.Inv host timestampOf w.receiver.toOtpReceiver
  drawn : ∀ lease ∈ w.receiver.grants, lease.id ∈ drawn
  ids : (w.receiver.grants.map Lease.id).Nodup
  logins : ∀ n, LoginInv w.receiver.toOtpReceiver (w.logins n)
  exclusive : ∀ n n' id, (w.logins n).phase.heldId = some id →
    (w.logins n').phase.heldId = some id → n = n'

variable {host : Host} {timestampOf : String → Int} {drawn : List String} {w : OtpExchange}

/-- The login that moved has moved. -/
theorem OtpExchange.setLogin_same (w : OtpExchange) (n : Nat) (login : OtpLogin) :
    (w.setLogin n login).logins n = login := by
  unfold OtpExchange.setLogin
  dsimp only
  rw [Function.update_self]

/-- The others have not. -/
theorem OtpExchange.setLogin_other (w : OtpExchange) {n n' : Nat} (login : OtpLogin) (h : n' ≠ n) :
    (w.setLogin n login).logins n' = w.logins n' := by
  unfold OtpExchange.setLogin
  dsimp only
  rw [Function.update_of_ne h]

/-- **Login rule.**  A login may move on with the id it had, with none, or with one that
no login had. -/
theorem ExchangeInv.setLogin (h : ExchangeInv host timestampOf drawn w) {n : Nat} {login : OtpLogin}
    (hlogin : LoginInv w.receiver.toOtpReceiver login)
    (hheld : ∀ id, login.phase.heldId = some id → (w.logins n).phase.heldId = some id ∨
      ∀ n', (w.logins n').phase.heldId ≠ some id) :
    ExchangeInv host timestampOf drawn (w.setLogin n login) := by
  have hother : ∀ n', n' ≠ n → ∀ id, login.phase.heldId = some id →
      (w.logins n').phase.heldId ≠ some id := by
    intro n' hn' id hid hsame
    rcases hheld id hid with hown | hnone
    · exact hn' (h.exclusive n' n id hsame hown)
    · exact hnone n' hsame
  refine ⟨h.receiver, h.drawn, h.ids, fun n' => ?_, fun n₁ n₂ id h₁ h₂ => ?_⟩
  · by_cases hn' : n' = n
    · rw [hn', w.setLogin_same n login]
      exact hlogin
    · rw [w.setLogin_other login hn']
      exact h.logins n'
  · by_cases hn₁ : n₁ = n
    · by_cases hn₂ : n₂ = n
      · exact hn₁.trans hn₂.symm
      · rw [hn₁, w.setLogin_same n login] at h₁
        rw [w.setLogin_other login hn₂] at h₂
        exact absurd h₂ (hother n₂ hn₂ id h₁)
    · rw [w.setLogin_other login hn₁] at h₁
      by_cases hn₂ : n₂ = n
      · rw [hn₂, w.setLogin_same n login] at h₂
        exact absurd h₁ (hother n₁ hn₁ id h₂)
      · rw [w.setLogin_other login hn₂] at h₂
        exact h.exclusive n₁ n₂ id h₁ h₂

/-- **Receiver rule.**  Ids that are drawn afresh stay apart. -/
theorem ExchangeInv.receives (hdigests : Digests host) (h : ExchangeInv host timestampOf drawn w)
    {event : OtpEvent} (hreported : event.Reported) (hstamped : event.Stamped timestampOf)
    (hfresh : ∀ id, event.draws = some id → id ∉ drawn) :
    ExchangeInv host timestampOf (drawn ++ event.draws.toList) (w.stepReceiver host event) := by
  have heffect := @otpStep_effect host w.receiver event hreported
  have hlogins : ∀ n, LoginInv (otpStep host w.receiver event).toOtpReceiver (w.logins n) :=
    fun n => (h.logins n).mono (historyGrows_of_effect heffect)
  have hreceiver := h.receiver.step hdigests hstamped heffect
  rcases otpStep_grants host w.receiver event with hsame | ⟨lease, hdraws, hnew⟩
  · refine ⟨hreceiver, fun lease hlease => ?_, ?_, hlogins, h.exclusive⟩
    · change lease ∈ (otpStep host w.receiver event).grants at hlease
      rw [hsame] at hlease
      exact List.mem_append_left _ (h.drawn lease hlease)
    · change ((otpStep host w.receiver event).grants.map Lease.id).Nodup
      rw [hsame]
      exact h.ids
  · refine ⟨hreceiver, fun lease' hlease' => ?_, ?_, hlogins, h.exclusive⟩
    · change lease' ∈ (otpStep host w.receiver event).grants at hlease'
      rw [hnew] at hlease'
      rcases List.mem_append.mp hlease' with hold | hlast
      · exact List.mem_append_left _ (h.drawn lease' hold)
      · rw [List.mem_singleton.mp hlast, hdraws]
        exact List.mem_append_right _ List.mem_cons_self
    · change ((otpStep host w.receiver event).grants.map Lease.id).Nodup
      rw [hnew, List.map_append]
      refine List.nodup_append.mpr ⟨h.ids, List.nodup_singleton _, fun id hid id' hid' => ?_⟩
      obtain ⟨lease', hlease', rfl⟩ := List.mem_map.mp hid
      obtain rfl := List.mem_singleton.mp hid'
      intro hsame
      apply hfresh lease.id hdraws
      rw [← hsame]
      exact h.drawn lease' hlease'

/-- An id that was not drawn is held by no login. -/
theorem ExchangeInv.not_held (h : ExchangeInv host timestampOf drawn w) {id : String}
    (hfresh : id ∉ drawn) (n : Nat) : (w.logins n).phase.heldId ≠ some id := by
  intro hheld
  obtain ⟨lease, hlease, rfl, -⟩ := (h.logins n).holds id hheld
  exact hfresh (h.drawn lease hlease)

/-- An arm request is granted the lease that its handler drew. -/
theorem armReply_granted {w : OtpWorld} {handler : Nat} {random : Option String}
    {provider : OtpProvider} {lease : Lease}
    (h : w.armReply handler random = some (provider, .granted lease)) :
    random = some lease.id ∧ lease.provider = provider ∧ lease.armedAt = w.now := by
  unfold OtpWorld.armReply at h
  cases hprocess : w.process with
  | none =>
      rw [hprocess] at h
      cases h
  | some b =>
      rw [hprocess] at h
      cases hstage : w.arms handler with
      | committing provider' =>
          rw [hstage] at h
          obtain ⟨rfl, hgranted⟩ := Prod.mk.inj (Option.some.inj h)
          exact armCommit_granted hgranted
      | idle =>
          rw [hstage] at h
          cases h
      | checking provider' =>
          rw [hstage] at h
          cases h

/-! ## What an event keeps -/

/-- The id that an event draws. -/
def ExchangeEvent.draws : ExchangeEvent → Option String
  | .receiver event => event.draws
  | .armAnswered _ _ random => random
  | _ => none

/-- What the receiver is told of its phone is what happened there. -/
def ExchangeEvent.Reported : ExchangeEvent → Prop
  | .receiver event => event.Reported
  | _ => True

/-- Messages carry the time at which they were sent. -/
def ExchangeEvent.Stamped (timestampOf : String → Int) : ExchangeEvent → Prop
  | .receiver event => event.Stamped timestampOf
  | _ => True

/-- A granted lease reaches the login that armed it. -/
theorem ExchangeInv.answered (hdigests : Digests host) (h : ExchangeInv host timestampOf drawn w)
    {n handler : Nat} {random : Option String} (hfresh : ∀ id, random = some id → id ∉ drawn) :
    ExchangeInv host timestampOf (drawn ++ random.toList)
      (exchangeStep host w (.armAnswered n handler random)) := by
  have hreceives : ExchangeInv host timestampOf (drawn ++ random.toList)
      (w.stepReceiver host (.armCommit handler random)) :=
    @ExchangeInv.receives host timestampOf drawn w hdigests h (.armCommit handler random) trivial
      trivial hfresh
  have hsame := hreceives.logins n
  change ExchangeInv host timestampOf _ ((w.stepReceiver host (.armCommit handler random)).setLogin n
    (answerArm (w.logins n) (w.receiver.armReply handler random)))
  cases hreply : w.receiver.armReply handler random with
  | none => exact hreceives.setLogin hsame fun id hid => .inl hid
  | some answer =>
      obtain ⟨provider, reply⟩ := answer
      unfold answerArm
      dsimp only
      by_cases hawaits : (w.logins n).phase.awaitsArm = true ∧ (w.logins n).provider = provider
      · rw [if_pos hawaits]
        cases reply with
        | granted lease =>
            obtain ⟨hrandom, hprovider, harmed⟩ := armReply_granted hreply
            refine hreceives.setLogin ⟨fun hnone => absurd hnone Bool.false_ne_true,
              fun id hid => ?_, fun request hrequest => ?_⟩ fun id hid => ?_
            · obtain rfl := Option.some.inj hid
              refine ⟨lease, ?_, rfl, hprovider.trans hawaits.2.symm, ?_⟩
              · change lease ∈ (otpStep host w.receiver (.armCommit handler random)).grants
                rw [otpStep_armCommit, hreply]
                exact List.mem_append_right _ List.mem_cons_self
              · rw [harmed]
                exact (h.logins n).started hawaits.1
            · cases hrequest
            · obtain rfl := Option.some.inj hid
              exact .inr fun n' => h.not_held (hfresh lease.id hrandom) n'
        | receiver_unavailable =>
            refine hreceives.setLogin (LoginInv.vacant rfl fun hnone => ?_) fun id hid => ?_
            · cases hnone
            · cases hid
        | request_active =>
            refine hreceives.setLogin (LoginInv.vacant rfl fun hnone => ?_) fun id hid => ?_
            · cases hnone
            · cases hid
      · rw [if_neg hawaits]
        exact hreceives.setLogin hsame fun id hid => .inl hid

/-- A code that the receiver hands out is a delivery. -/
theorem ExchangeInv.waited (hdigests : Digests host) (h : ExchangeInv host timestampOf drawn w)
    {n : Nat} {outcome : WriteOutcome} {timedOut : Bool} :
    ExchangeInv host timestampOf drawn (exchangeStep host w (.waitAnswered n outcome timedOut)) := by
  unfold exchangeStep
  dsimp only
  split
  · next request hphase =>
    by_cases hasks : request.reading.awaitsCode = true
    · rw [if_pos hasks]
      have hreceives := @ExchangeInv.receives host timestampOf drawn w hdigests h
        (.wait (w.logins n).provider request.requestId outcome) trivial trivial
        fun id hid => nomatch hid
      rw [show drawn ++ (OtpEvent.wait (w.logins n).provider request.requestId outcome).draws.toList
        = drawn from List.append_nil drawn] at hreceives
      have hsame := hreceives.logins n
      cases hreply : w.receiver.waitReply (w.logins n).provider request.requestId outcome with
      | none => exact hreceives.setLogin hsame fun id hid => .inl hid
      | some reply =>
          unfold answerWait
          dsimp only
          by_cases hsleeps : reply = .pending ∧ timedOut = false
          · rw [if_pos hsleeps]
            exact hreceives.setLogin hsame fun id hid => .inl hid
          · rw [if_neg hsleeps]
            refine hreceives.setLogin (hsame.setReading hphase ?_) fun id hid => .inl ?_
            · cases reply with
              | code lease => exact otpStep_wait hreply
              | pending => trivial
              | receiver_unavailable => trivial
              | request_gone => trivial
              | ambiguous_code => trivial
            · change (w.logins n).phase.heldId = some id
              rw [hphase]
              exact hid
    · rw [if_neg hasks]
      exact h
  · exact h

/-- **One event** keeps the invariant. -/
theorem ExchangeInv.step (hdigests : Digests host) (h : ExchangeInv host timestampOf drawn w)
    {event : ExchangeEvent} (hreported : event.Reported) (hstamped : event.Stamped timestampOf)
    (hfresh : ∀ id, event.draws = some id → id ∉ drawn) :
    ExchangeInv host timestampOf (drawn ++ event.draws.toList) (exchangeStep host w event) := by
  have hquiet : drawn ++ (none : Option String).toList = drawn := List.append_nil drawn
  cases event with
  | receiver event => exact h.receives hdigests hreported hstamped hfresh
  | armAnswered n handler random => exact h.answered hdigests hfresh
  | login n event =>
      change ExchangeInv host timestampOf (drawn ++ (none : Option String).toList) _
      rw [hquiet]
      have heffect := loginStep_effect w.now (w.logins n) event
      exact h.setLogin ((h.logins n).step heffect) fun id hid => .inl (heffect.heldId hid)
  | waitAnswered n outcome timedOut =>
      change ExchangeInv host timestampOf (drawn ++ (none : Option String).toList) _
      rw [hquiet]
      exact h.waited hdigests

/-! ## From the message to the login -/

/-- A reading has a code when it is done. -/
theorem OtpReading.code_eq_some {reading : OtpReading} {code : String} :
    reading.code = some code ↔ reading = .done (.ok code) := by
  unfold OtpReading.code
  constructor
  · intro h
    split at h
    · rw [Option.some.inj h]
    · cases h
  · intro h
    rw [h]

/-- The code of an armed login is that of its reading. -/
theorem OtpLogin.code_armed {login : OtpLogin} {request : OtpRequest}
    (h : login.phase = .armed request) : login.code = request.reading.code := by
  unfold OtpLogin.code
  rw [h]

/-- When a login has a code. -/
theorem OtpLogin.code_eq_some {login : OtpLogin} {code : String} :
    login.code = some code ↔
      ∃ request, login.phase = .armed request ∧ request.reading = .done (.ok code) := by
  constructor
  · intro h
    cases hphase : login.phase with
    | armed request =>
        rw [code_armed hphase] at h
        exact ⟨request, rfl, OtpReading.code_eq_some.mp h⟩
    | unused =>
        unfold OtpLogin.code at h
        rw [hphase] at h
        cases h
    | arming reply =>
        unfold OtpLogin.code at h
        rw [hphase] at h
        cases h
    | failed error =>
        unfold OtpLogin.code at h
        rw [hphase] at h
        cases h
  · intro h
    obtain ⟨request, hphase, hreading⟩ := h
    rw [code_armed hphase, hreading]
    rfl

/-- The message that a login's code was taken from. -/
structure CodeFrom (w : OtpExchange) (n : Nat) (code : String) (a : Acceptance) : Prop where
  /-- It is the only one that was accepted for the lease of the login. -/
  lease : ∃ d ∈ w.receiver.deliveries, (w.logins n).phase.heldId = some d.lease.id ∧
    w.receiver.Provenance d a
  code : a.message.code = code
  provider : a.message.provider = (w.logins n).provider
  sender : a.message.sender ∈ a.allowed
  /-- It was not there before the login. -/
  recent : (w.logins n).startedAt ≤ jsMillis a.message.timestamp

/-- **A code comes from a message** to the lease of its login. -/
theorem ExchangeInv.codeFrom (h : ExchangeInv host timestampOf drawn w) {n : Nat} {code : String}
    (hcode : (w.logins n).code = some code) : ∃ a, CodeFrom w n code a := by
  obtain ⟨request, hphase, hreading⟩ := OtpLogin.code_eq_some.mp hcode
  have hdelivered := (h.logins n).delivered request hphase
  rw [hreading] at hdelivered
  obtain ⟨d, hd, hid, hsame⟩ := hdelivered
  have hheld : (w.logins n).phase.heldId = some d.lease.id := by
    rw [hphase, hid]
    rfl
  obtain ⟨a, hprovenance⟩ := h.receiver.provenance d hd
  obtain ⟨lease, heligible, hleaseId, -⟩ := hprovenance.granted
  obtain ⟨lease', hlease', hid', hprovider, hstarted⟩ := (h.logins n).holds d.lease.id hheld
  -- the ids of the granted leases tell them apart
  obtain rfl : lease' = lease := List.inj_on_of_nodup_map h.ids hlease'
    (List.mem_of_getElem? heligible.granted) (hid'.trans hleaseId)
  exact ⟨a, {
    lease := ⟨d, hd, hheld, hprovenance⟩
    code := hprovenance.code.symm.trans hsame
    provider := heligible.provider.trans hprovider
    sender := heligible.sender
    recent := le_trans hstarted (jsMillis_mono heligible.armed) }⟩

/-- A message gives its code to one login. -/
theorem ExchangeInv.once (h : ExchangeInv host timestampOf drawn w) {n n' : Nat}
    {code code' : String} {a a' : Acceptance} (ha : CodeFrom w n code a)
    (ha' : CodeFrom w n' code' a') (hsame : a.message.id = a'.message.id) : n = n' := by
  obtain ⟨d, hd, hheld, hprovenance⟩ := ha.lease
  obtain ⟨d', hd', hheld', hprovenance'⟩ := ha'.lease
  obtain rfl := h.receiver.singleDelivery.perMessage d hd d' hd' a a' hprovenance hprovenance' hsame
  exact h.exclusive n n' d.lease.id hheld hheld'

/-- Asking gives no code. -/
theorem code_ask (now : Int) (aborted : Bool) (request : OtpRequest) :
    (ask now aborted request).code = none := by
  unfold ask
  split_ifs
  · rfl
  · rfl

/-- A login comes by a code only when one arrives in time. -/
theorem OtpLoginEffect.timely {now : Int} {login login' : OtpLogin} {event : OtpLoginEvent}
    (h : OtpLoginEffect now login event login') {code : String} (hcode : login'.code = some code) :
    login.code = some code ∨ event = .waitArrives false ∧ ∃ request,
      login.phase = .armed request ∧ request.canceled = false ∧ now < request.expiresAt := by
  cases h with
  | idle => exact .inl hcode
  | prepared provider aborted hphase =>
      cases aborted with
      | true => cases hcode
      | false => cases hcode
  | arrived aborted reply hphase =>
      obtain ⟨request', hphase', hreading'⟩ := OtpLogin.code_eq_some.mp hcode
      rcases armArrived_cases login.startedAt now aborted reply with
        ⟨error, hfailed⟩ | ⟨lease, request, -, -, hidle, harmed⟩
      · exact absurd (hfailed.symm.trans hphase') OtpLoginPhase.noConfusion
      · obtain rfl := OtpLoginPhase.armed.inj (harmed.symm.trans hphase')
        rw [hidle] at hreading'
        cases hreading'
  | failed error reply hphase => cases hcode
  | asks _ aborted request hphase hreading =>
      have hnone := code_ask now aborted request
      exact absurd (hnone.symm.trans hcode) (Option.some_ne_none code).symm
  | received aborted request reply hphase hreading =>
      obtain ⟨request', hphase', hreading'⟩ := OtpLogin.code_eq_some.mp hcode
      obtain rfl := OtpLoginPhase.armed.inj hphase'
      obtain ⟨rfl, hcanceled, hlive⟩ := waitArrived_ok hreading'
      exact .inr ⟨rfl, request, hphase, hcanceled, hlive⟩
  | waitFailed error request reply hphase hreading => cases hcode
  | canceled request hphase =>
      rw [OtpLogin.code_armed hphase]
      exact .inl hcode

/-- A code that was returned stays. -/
theorem OtpLoginEffect.keepsCode {now : Int} {login login' : OtpLogin} {event : OtpLoginEvent}
    (h : OtpLoginEffect now login event login') {code : String} (hcode : login.code = some code) :
    login'.code = some code := by
  obtain ⟨request₀, hphase₀, hreading₀⟩ := OtpLogin.code_eq_some.mp hcode
  cases h with
  | idle => exact hcode
  | prepared provider aborted hphase =>
      exact absurd (hphase.symm.trans hphase₀) OtpLoginPhase.noConfusion
  | arrived aborted reply hphase =>
      exact absurd (hphase.symm.trans hphase₀) OtpLoginPhase.noConfusion
  | failed error reply hphase =>
      exact absurd (hphase.symm.trans hphase₀) OtpLoginPhase.noConfusion
  | asks _ aborted request hphase hreading =>
      obtain rfl := OtpLoginPhase.armed.inj (hphase.symm.trans hphase₀)
      rw [hreading₀] at hreading
      rcases hreading with hidle | hpausing
      · cases hidle
      · cases hpausing
  | received aborted request reply hphase hreading =>
      obtain rfl := OtpLoginPhase.armed.inj (hphase.symm.trans hphase₀)
      rw [hreading₀] at hreading
      cases hreading
  | waitFailed error request reply hphase hreading =>
      obtain rfl := OtpLoginPhase.armed.inj (hphase.symm.trans hphase₀)
      rw [hreading₀] at hreading
      cases hreading
  | canceled request hphase =>
      rw [OtpLogin.code_armed hphase] at hcode
      exact hcode

/-- Neither does arming. -/
theorem code_answerArm (login : OtpLogin) (answer : Option (OtpProvider × ArmReply)) :
    (answerArm login answer).code = login.code := by
  cases answer with
  | none => rfl
  | some answer =>
      obtain ⟨provider, reply⟩ := answer
      unfold answerArm
      dsimp only
      by_cases hawaits : login.phase.awaitsArm = true ∧ login.provider = provider
      · rw [if_pos hawaits]
        cases hcode : login.code with
        | none => rfl
        | some code =>
            obtain ⟨request, hphase, -⟩ := OtpLogin.code_eq_some.mp hcode
            rw [hphase] at hawaits
            exact absurd hawaits.1 Bool.false_ne_true
      · rw [if_neg hawaits]

/-- A code is given once, by the answer to a waiting request. -/
theorem code_answerWait {login : OtpLogin} {request : OtpRequest}
    (hphase : login.phase = .armed request) (hasks : request.reading.awaitsCode = true)
    (timedOut : Bool) (reply : Option WaitReply) :
    (answerWait login request timedOut reply).code = login.code := by
  cases reply with
  | none => rfl
  | some reply =>
      unfold answerWait
      dsimp only
      by_cases hsleeps : reply = .pending ∧ timedOut = false
      · rw [if_pos hsleeps]
      · rw [if_neg hsleeps, OtpLogin.code_armed hphase]
        cases hcode : request.reading.code with
        | none => rfl
        | some code =>
            rw [OtpReading.code_eq_some.mp hcode] at hasks
            exact absurd hasks Bool.false_ne_true

/-- A move that keeps a login's code keeps all codes. -/
theorem setLogin_code {w : OtpExchange} {m : Nat} {login : OtpLogin}
    (h : login.code = (w.logins m).code) (n : Nat) :
    ((w.setLogin m login).logins n).code = (w.logins n).code := by
  by_cases hm : n = m
  · rw [hm, w.setLogin_same m login]
    exact h
  · rw [w.setLogin_other login hm]

/-- What an event does to one of the logins. -/
theorem exchangeStep_login (w : OtpExchange) (event : ExchangeEvent) (n : Nat) :
    ((exchangeStep host w event).logins n).code = (w.logins n).code ∨
      ∃ loginEvent, event = .login n loginEvent ∧
        (exchangeStep host w event).logins n = loginStep w.now (w.logins n) loginEvent := by
  cases event with
  | receiver event => exact .inl rfl
  | login m loginEvent =>
      by_cases hm : n = m
      · subst hm
        exact .inr ⟨loginEvent, rfl, w.setLogin_same n _⟩
      · left
        change ((w.setLogin m _).logins n).code = _
        rw [w.setLogin_other _ hm]
  | armAnswered m handler random =>
      exact .inl (setLogin_code (code_answerArm (w.logins m) _) n)
  | waitAnswered m outcome timedOut =>
      left
      unfold exchangeStep
      dsimp only
      split
      · next request hphase =>
        by_cases hasks : request.reading.awaitsCode = true
        · rw [if_pos hasks]
          exact setLogin_code (code_answerWait hphase hasks timedOut _) n
        · rw [if_neg hasks]
      · rfl

/-- What holds of the codes that were returned, and of the step that returns one. -/
structure ExchangeLaw (w : OtpExchange) (event : ExchangeEvent) (w' : OtpExchange) : Prop where
  codes : ∀ n code, (w'.logins n).code = some code → ∃ a, CodeFrom w' n code a
  once : ∀ n n' code code' a a', CodeFrom w' n code a → CodeFrom w' n' code' a' →
    a.message.id = a'.message.id → n = n'
  timely : ∀ n code, (w'.logins n).code = some code → (w.logins n).code = some code ∨
    event = .login n (.waitArrives false) ∧ ∃ request, (w.logins n).phase = .armed request ∧
      request.canceled = false ∧ w.now < request.expiresAt
  kept : ∀ n code, (w.logins n).code = some code → (w'.logins n).code = some code

/-- The invariant gives the law. -/
theorem ExchangeInv.law {drawn' : List String} {event : ExchangeEvent}
    (h' : ExchangeInv host timestampOf drawn' (exchangeStep host w event)) :
    ExchangeLaw w event (exchangeStep host w event) where
  codes _ _ hcode := h'.codeFrom hcode
  once _ _ _ _ _ _ ha ha' hsame := h'.once ha ha' hsame
  timely n code hcode := by
    rcases exchangeStep_login w event n with hsame | ⟨loginEvent, rfl, hstep⟩
    · rw [hsame] at hcode
      exact .inl hcode
    · rw [hstep] at hcode
      have heffect := loginStep_effect w.now (w.logins n) loginEvent
      rcases heffect.timely hcode with hold | ⟨rfl, hrequest⟩
      · exact .inl hold
      · exact .inr ⟨rfl, hrequest⟩
  kept n code hcode := by
    rcases exchangeStep_login w event n with hsame | ⟨loginEvent, rfl, hstep⟩
    · rw [hsame]
      exact hcode
    · rw [hstep]
      exact (loginStep_effect w.now (w.logins n) loginEvent).keepsCode hcode

/-- A new receiver owes nothing. -/
theorem exchangeInv_fresh (host : Host) (timestampOf : String → Int) {now : Int} (h : 0 < now) :
    ExchangeInv host timestampOf [] { receiver := freshOtpWorld now } where
  receiver := OtpReceiver.inv_fresh host timestampOf h
  drawn _ hlease := nomatch hlease
  ids := List.nodup_nil
  logins _ := LoginInv.vacant rfl fun hawaits => absurd hawaits Bool.false_ne_true
  exclusive _ _ _ hid := nomatch hid

/-- **A code reaches the login it was sent for.**  In every run of any number of logins
against the receiver, with restarts, lost answers and other users of the socket: a code
that a login returns is of the only message accepted for its own lease, from a listed
sender of its provider and not older than the login; no two logins return the code of one
message; and a login returns a code only before the end of its lease, when it was neither
aborted nor canceled, and keeps it. -/
theorem otp_exchange (host : Host) (hdigests : Digests host) (timestampOf : String → Int)
    (now : Int) (hnow : 0 < now) (events : List ExchangeEvent)
    (hreported : ∀ e ∈ events, e.Reported) (hstamped : ∀ e ∈ events, e.Stamped timestampOf)
    (hfresh : (events.filterMap ExchangeEvent.draws).Nodup) :
    Runs.Along (exchangeStep host) ExchangeLaw { receiver := freshOtpWorld now } events := by
  rw [Runs.along_iff_prefix]
  intro before event hprefix
  have hinv : ∀ done, done <+: events → ExchangeInv host timestampOf
      (done.filterMap ExchangeEvent.draws)
      (Runs.run (exchangeStep host) { receiver := freshOtpWorld now } done) := by
    intro done hdone
    refine @Runs.run_history _ _ (exchangeStep host) (fun done w =>
      ExchangeInv host timestampOf (done.filterMap ExchangeEvent.draws) w) _ done
      (exchangeInv_fresh host timestampOf hnow) fun earlier e w hearlier hinv => ?_
    have hin : e ∈ events := (hearlier.trans hdone).subset (List.mem_append_right _ List.mem_cons_self)
    have hdraws : (earlier ++ [e]).filterMap ExchangeEvent.draws =
        earlier.filterMap ExchangeEvent.draws ++ e.draws.toList := by
      rw [List.filterMap_append]
      cases hdraw : e.draws with
      | none => rw [List.filterMap_cons_none hdraw]; rfl
      | some id => rw [List.filterMap_cons_some hdraw]; rfl
    rw [hdraws]
    refine hinv.step hdigests (hreported e hin) (hstamped e hin) fun id hid hdrawn => ?_
    have hapart := hfresh.sublist ((hearlier.trans hdone).sublist.filterMap _)
    rw [hdraws, hid] at hapart
    exact (List.nodup_append.mp hapart).2.2 id hdrawn id List.mem_cons_self rfl
  have hnext := hinv (before ++ [event]) hprefix
  rw [Runs.run_append] at hnext ⊢
  exact hnext.law

/-! ## One login -/

/-- What `rand.Read` gives the handler. -/
def drawnId : String := "97d035e32036a670058f2be4e008a7c56355489750a5da6f"

/-- The code arrives after the first wait was answered in vain. -/
def loginRun : List ExchangeEvent :=
  [.receiver (.start otpConfig), .receiver (.setHealth true .ready), .login 0 (.prepare .clal false),
    .receiver (.armCheck 0 .clal), .receiver (.armReady 0 true), .armAnswered 0 0 (some drawnId),
    .login 0 (.armArrives false), .login 0 (.read false), .waitAnswered 0 .written true,
    .login 0 (.waitArrives false), .receiver (.tick 500000000),
    .receiver (.accept { codeMessage with timestamp := unixEpoch + 2 * goSecond }),
    .login 0 (.pauseEnds false), .waitAnswered 0 .written false, .login 0 (.waitArrives false)]

example : ((Runs.run (exchangeStep otpHost) { receiver := freshOtpWorld (unixEpoch + goSecond) }
    loginRun).logins 0).code = some "123456" := by decide +kernel

/-- A login gets the code of its own message. -/
theorem otp_exchange_login :
    Runs.Along (exchangeStep otpHost) ExchangeLaw
      { receiver := freshOtpWorld (unixEpoch + goSecond) } loginRun := by
  refine otp_exchange otpHost digests_otpHost (fun _ => unixEpoch + 2 * goSecond)
    (unixEpoch + goSecond) (by decide) loginRun ?_ ?_ ?_
  · simp [loginRun, ExchangeEvent.Reported, OtpEvent.Reported, ReceiverHealth.isFailure]
  · simp [loginRun, ExchangeEvent.Stamped, OtpEvent.Stamped, codeMessage]
  · exact List.nodup_singleton drawnId

end SimplefinBridge
