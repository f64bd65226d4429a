import SimplefinBridge.InvestmentRuntime

/-!
# Automatic login

A collector that meets an expired session logs in once and collects once more.
The login asks for its SMS through `beforeSmsRequest`, which reserves it first;
a profile that is busy before that only defers the collection, and after it
ends it.
-/

namespace SimplefinBridge

/-- What a login does: it uses its context and asks for an SMS, with a signal that
may be aborted. -/
inductive LoginEffect
  | context (effect : ContextEffect)
  | beforeSmsRequest (aborted : Bool)

/-- What an effect of the login is answered with. -/
abbrev LoginEffect.Answer : LoginEffect → Type
  | context effect => effect.Answer
  | beforeSmsRequest _ => Except CollectionError Unit

/-- A login's program. -/
abbrev ClalLogin (ι : Type) := Async LoginEffect LoginEffect.Answer ι CollectionError

/-- The program of a provider's collector, which reuses a saved session and
requests no SMS. -/
abbrev SessionCollector (ι : Type) := Async ContextEffect ContextEffect.Answer ι CollectionError

section
variable {ι : Type}

/-- A provider's collector, run with the context of a collector. -/
def SessionCollector.run (collect : SessionCollector ι CollectionStatus) :
    Collector ι CollectionStatus := collect.lift .context fun _ answer => answer

/-- `context.signal.aborted` -/
def signalAborted : Collector ι Bool := .perform (.context .aborted) fun aborted => .ret aborted

/-- `beforeSmsRequest(signal)`, with the flag that `onSmsAttemptReserved` sets. -/
def beforeSmsRequest (smsReserved aborted : Bool) :
    Collector ι (Except CollectionError Unit × Bool) :=
  if aborted then .ret (.error .other, smsReserved)
  else .perform (.context .now) fun now =>
    .perform (.consumeAutomaticSmsAttempt (toIsoString now)) fun
      | .ok true => .ret (.ok (), true)
      | .ok false => .ret (.error (.collection .OTP_REQUIRED), smsReserved)
      | .error _ => .ret (.error .other, smsReserved)

/-- How the effects of a login are carried out. -/
def loginEffect (smsReserved : Bool) :
    (effect : LoginEffect) → Collector ι (effect.Answer × Bool)
  | .context effect => .perform (.context effect) fun answer => .ret (answer, smsReserved)
  | .beforeSmsRequest aborted => beforeSmsRequest smsReserved aborted

/-- `automaticClalLogin`: one login only; whether it has returned, and whether it
has reserved an SMS. -/
def automaticClalLogin (hasSocket manual : Bool) (login : Bool → ClalLogin ι Unit) :
    Collector ι (Except CollectionError Unit × Bool) :=
  if !hasSocket && !manual then .ret (.error (.collection .OTP_REQUIRED), false)
  else signalAborted.bind fun aborted =>
    if aborted then .ret (.error .other, false)
    else (login manual).interpret loginEffect false

/-- The `catch` of the recovery collector. -/
def loginIncomplete (smsReserved : Bool) (error : CollectionError) : Collector ι CollectionStatus :=
  signalAborted.bind fun aborted =>
    .ret (if aborted then .error
      else if error = .profileBusy ∧ smsReserved = false then .skipped
      else .auth_required)

/-- The second collection, after a login. -/
def collectAgain (collect : SessionCollector ι CollectionStatus) (smsReserved : Bool) :
    Collector ι CollectionStatus :=
  signalAborted.bind fun aborted =>
    if aborted then .ret .error
    else collect.run.attempt.bind fun
      -- a busy profile after the login must not lead to another SMS sequence
      | .ok retryStatus => .ret (if retryStatus = .skipped then .error else retryStatus)
      | .error error => loginIncomplete smsReserved error

/-- `createClalRecoveryCollector` -/
def createClalRecoveryCollector (hasSocket : Bool)
    (collect : Bool → SessionCollector ι CollectionStatus) (login : Bool → ClalLogin ι Unit)
    (manual : Bool) : Collector ι CollectionStatus :=
  (collect manual).run.bind fun status =>
    if status ≠ .auth_required ∨ (hasSocket = false ∧ manual = false) then .ret status
    else signalAborted.bind fun aborted =>
      if aborted then .ret .error
      else (automaticClalLogin hasSocket manual login).bind fun
        | (.ok (), smsReserved) => collectAgain (collect manual) smsReserved
        | (.error error, smsReserved) => loginIncomplete smsReserved error

end

/-! ## The assisted login -/

/-- What the browser, the receiver or the secrets answer an awaited operation: an
exception, or a number that is zero for a negative answer; and whether the
browser's own timeout has passed by then. -/
structure PageAnswer where
  result : Except CollectionError Nat := .ok 1
  timedOut : Bool := false

namespace AssistedLogin

/-- Await one operation. -/
def page (next : Nat → Bool → ClalLogin PageAnswer Unit) : ClalLogin PageAnswer Unit :=
  .await fun answer =>
    match answer.result with
    | .ok value => next value answer.timedOut
    | .error error => .fail error

/-- `signal.throwIfAborted()` of the browser's signal. -/
def throwIfAborted (timedOut : Bool) (next : ClalLogin PageAnswer Unit) : ClalLogin PageAnswer Unit :=
  .perform (.context .aborted) fun aborted => if aborted || timedOut then .fail .other else next

/-- `clalSessionVerifiedCallback` -/
def onSessionVerified (remainingSeconds : Nat) : ClalLogin PageAnswer Unit :=
  .perform (.context .aborted) fun aborted =>
    if aborted then .ret ()
    else .perform (.context .now) fun checkedAt => .perform (.context .getSessionState) fun
      | .error _ => .fail .other
      | .ok previous =>
          .perform (.context (.setSessionState {
            status := .active
            lastCheckedAt := some (toIsoString checkedAt)
            lastRenewedAt := previous.lastRenewedAt
            expiresAt := some (toIsoString (checkedAt + remainingSeconds * 1000))
            errorCode := none })) fun
          | .error _ => .fail .other
          | .ok _ => .ret ()

/-- `assertClalSessionAuthenticated`, `readClalSessionRemaining` and the callback. -/
def verifySession : ClalLogin PageAnswer Unit :=
  page fun _ _ => page fun remainingSeconds timedOut =>
    throwIfAborted timedOut (onSessionVerified remainingSeconds)

/-- After the SMS was requested: the code is read, entered, and the session
verified. -/
def enterCode : ClalLogin PageAnswer Unit :=
  page fun _ timedOut => throwIfAborted timedOut <| page fun isCode timedOut =>
    if isCode = 0 then .fail (.collection .OTP_REQUIRED)
    else throwIfAborted timedOut <| page fun isLogin _ =>
      if isLogin ≠ 0 then .fail (.collection .OTP_REQUIRED) else verifySession

/-- The receiver must be ready before the SMS is reserved and requested. -/
def requestCode : ClalLogin PageAnswer Unit :=
  page fun _ _ => page fun _ timedOut => throwIfAborted timedOut <|
    .perform (.beforeSmsRequest false) fun
      | .error error => .fail error
      | .ok () => enterCode

/-- `finally { await otpRequest?.cancel() }` -/
def withCleanup (program : ClalLogin PageAnswer Unit) : ClalLogin PageAnswer Unit :=
  program.attempt.bind fun
    | .ok () => page fun _ _ => .ret ()
    | .error error => page fun _ _ => .fail error

end AssistedLogin

open AssistedLogin in
/-- `assistedClalLogin`: the browser is started, and a login form is filled in
unless the saved session still works. -/
def assistedClalLogin : ClalLogin PageAnswer Unit :=
  page fun _ _ => page fun isLogin _ =>
    if isLogin ≠ 0 then withCleanup requestCode
    else verifySession.attempt.bind fun
      | .ok () => .ret ()
      | .error error =>
          if error = .collection .OTP_REQUIRED then withCleanup requestCode else .fail error

/-! ## What a collector spends -/

/-- The number of SMS reserved. -/
def spends (spent : Nat) (effect : CollectorEffect) (answer : effect.Answer) : Nat :=
  spent + if effect.reservesSms answer then 1 else 0

/-- The number of times a login asks for an SMS. -/
def asks (asked : Nat) : (effect : LoginEffect) → effect.Answer → Nat
  | .context _, _ => asked
  | .beforeSmsRequest _, _ => asked + 1

/-- Whatever it is answered, the login asks for an SMS at most once. -/
def AsksAtMostOnce {ι : Type} (login : ClalLogin ι Unit) : Prop :=
  login.Meets asks (· ≤ 1) (fun _ _ => True) 0

/-- A skipped collection has reserved no SMS. -/
def SkipsUnspent (spent : Nat) (out : Except CollectionError CollectionStatus) : Prop :=
  out = .ok .skipped → spent = 0

/-- The collector reserves at most one SMS, and none when it skips. -/
def SpendsAtMostOne {ι : Type} (collector : Collector ι CollectionStatus) : Prop :=
  collector.Meets spends (· ≤ 1) SkipsUnspent 0

section
variable {ι : Type}

/-- Only an SMS request spends. -/
theorem spends_context (spent : Nat) (effect : ContextEffect) (answer : effect.Answer) :
    spends spent (.context effect) answer = spent := rfl

/-- Looking at the signal spends nothing. -/
theorem meets_signalAborted {β : Type} {Q : Nat → Except CollectionError β → Prop} {spent : Nat}
    {next : Bool → Collector ι β} (hspent : spent ≤ 1)
    (hnext : ∀ aborted, (next aborted).Meets spends (· ≤ 1) Q spent) :
    (signalAborted.bind next).Meets spends (· ≤ 1) Q spent := And.intro hspent hnext

/-- A collection spends nothing. -/
theorem meets_run (collect : SessionCollector ι CollectionStatus) {spent : Nat}
    (hspent : spent ≤ 1) : collect.run.Meets spends (· ≤ 1) (fun s _ => s = spent) spent :=
  Async.meets_lift (f := CollectorEffect.context) (I := (· ≤ 1)) (Q := fun s _ => s = spent)
    spends_context hspent (fun _ => rfl) collect

/-- A login that is not complete has spent what it reserved. -/
theorem meets_loginIncomplete {spent : Nat} (hspent : spent ≤ 1) {smsReserved : Bool}
    (hflag : smsReserved = false → spent = 0) (error : CollectionError) :
    (loginIncomplete (ι := ι) smsReserved error).Meets spends (· ≤ 1) SkipsUnspent spent := by
  refine meets_signalAborted hspent fun aborted => And.intro hspent ?_
  intro hskipped
  split_ifs at hskipped with haborted hbusy
  · cases hskipped
  · exact hflag hbusy.2
  · cases hskipped

/-- Collecting again spends nothing. -/
theorem meets_collectAgain (collect : SessionCollector ι CollectionStatus) {spent : Nat}
    (hspent : spent ≤ 1) {smsReserved : Bool} (hflag : smsReserved = false → spent = 0) :
    (collectAgain collect smsReserved).Meets spends (· ≤ 1) SkipsUnspent spent := by
  refine meets_signalAborted hspent fun aborted => ?_
  cases aborted with
  | true => exact And.intro hspent nofun
  | false =>
      refine Async.meets_bind (Async.meets_attempt (meets_run collect hspent)) ?_ ?_
      · rintro s result hs ⟨result', hout, rfl⟩
        cases result with
        | error e => exact meets_loginIncomplete hspent hflag e
        | ok status =>
            refine And.intro hspent fun hskipped => ?_
            split_ifs at hskipped with hbusy
            · cases hskipped
            · exact absurd (Except.ok.inj hskipped) hbusy
      · rintro s e hs ⟨result, hout, -⟩
        cases hout

/-- Reserving spends one message at most. -/
theorem meets_beforeSmsRequest (smsReserved aborted : Bool) :
    (beforeSmsRequest (ι := ι) smsReserved aborted).Meets spends (· ≤ 1)
      (fun spent out => ∃ answer reserved, out = .ok (answer, reserved) ∧
        (reserved = false → spent = 0)) 0 := by
  unfold beforeSmsRequest
  cases aborted with
  | true => exact ⟨Nat.zero_le 1, _, _, rfl, fun _ => rfl⟩
  | false =>
      refine ⟨Nat.zero_le 1, fun now => ⟨Nat.zero_le 1, fun answer => ?_⟩⟩
      rcases answer with e | allowed
      · exact ⟨Nat.zero_le 1, _, _, rfl, fun _ => rfl⟩
      · cases allowed with
        | true => exact ⟨le_refl 1, _, _, rfl, nofun⟩
        | false => exact ⟨Nat.zero_le 1, _, _, rfl, fun _ => rfl⟩

/-- What a login that has asked so often has reserved. -/
def LoginSpent (asked : Nat) (smsReserved : Bool) (spent : Nat) : Prop :=
  spent ≤ asked ∧ (smsReserved = false → spent = 0)

/-- The login reserves an SMS only where it asks for one. -/
theorem meets_loginEffect (asked : Nat) (smsReserved : Bool) (spent : Nat) (effect : LoginEffect)
    (hspent : LoginSpent asked smsReserved spent) (hasked : asked ≤ 1)
    (hnext : ∀ answer, asks asked effect answer ≤ 1) :
    (loginEffect (ι := ι) smsReserved effect).Meets spends (· ≤ 1)
      (fun spent out => ∃ answer reserved, out = .ok (answer, reserved) ∧
        LoginSpent (asks asked effect answer) reserved spent) spent := by
  obtain ⟨hle, hflag⟩ := hspent
  cases effect with
  | context effect =>
      exact And.intro (hle.trans hasked) fun answer =>
        And.intro (hle.trans hasked) ⟨answer, smsReserved, rfl, hle, hflag⟩
  | beforeSmsRequest aborted =>
      -- the login has not asked before, so nothing is spent
      have hzero : spent = 0 := by
        have hone : asked + 1 ≤ 1 := hnext (.ok ())
        omega
      subst hzero
      refine (meets_beforeSmsRequest smsReserved aborted).imp ?_
      rintro spent out hspent ⟨answer, reserved, rfl, hflag'⟩
      exact ⟨answer, reserved, rfl, hspent.trans (Nat.le_add_left 1 asked), hflag'⟩

/-- A login that asks once spends once. -/
theorem meets_login {login : ClalLogin ι Unit} (honce : AsksAtMostOnce login) :
    (login.interpret loginEffect false : Collector ι _).Meets spends (· ≤ 1)
      (fun spent out => ∃ result reserved, out = .ok (result, reserved) ∧ spent ≤ 1 ∧
        (reserved = false → spent = 0)) 0 := by
  have hstart : LoginSpent 0 false 0 := ⟨le_refl 0, fun _ => rfl⟩
  have hrun := Async.meets_interpret (fun _ _ _ hspent hasked => hspent.1.trans hasked)
    meets_loginEffect honce hstart
  refine hrun.imp ?_
  rintro spent out hspent ⟨result, reserved, asked, hout, hrel, -, -⟩
  exact ⟨result, reserved, hout, hspent, hrel.2⟩

/-- **At most one SMS.**  Over a login that asks at most once, one run of the
recovery collector reserves at most one SMS, and none when it is skipped. -/
theorem recoveryCollector_spends (hasSocket : Bool)
    (collect : Bool → SessionCollector ι CollectionStatus) {login : Bool → ClalLogin ι Unit}
    (honce : ∀ manual, AsksAtMostOnce (login manual)) (manual : Bool) :
    SpendsAtMostOne (createClalRecoveryCollector hasSocket collect login manual) := by
  refine Async.meets_bind (meets_run (collect manual) (Nat.zero_le 1)) ?_ ?_
  · rintro spent status hspent rfl
    split_ifs
    · exact And.intro (Nat.zero_le 1) fun _ => rfl
    refine meets_signalAborted (Nat.zero_le 1) fun aborted => ?_
    cases aborted with
    | true => exact And.intro (Nat.zero_le 1) nofun
    | false =>
        have hlogin : (automaticClalLogin (ι := ι) hasSocket manual login).Meets spends (· ≤ 1)
            (fun spent out => ∃ result reserved, out = .ok (result, reserved) ∧ spent ≤ 1 ∧
              (reserved = false → spent = 0)) 0 := by
          unfold automaticClalLogin
          split_ifs
          · exact And.intro (Nat.zero_le 1) ⟨_, _, rfl, Nat.zero_le 1, fun _ => rfl⟩
          refine meets_signalAborted (Nat.zero_le 1) fun aborted => ?_
          cases aborted with
          | true => exact And.intro (Nat.zero_le 1) ⟨_, _, rfl, Nat.zero_le 1, fun _ => rfl⟩
          | false => exact meets_login (honce manual)
        refine Async.meets_bind hlogin ?_ ?_
        · rintro spent ⟨result, reserved⟩ - ⟨result', reserved', hout, hspent', hflag⟩
          obtain ⟨rfl, rfl⟩ := Prod.mk.inj (Except.ok.inj hout)
          cases result with
          | error e => exact meets_loginIncomplete hspent' hflag e
          | ok u => exact meets_collectAgain (collect manual) hspent' hflag
        · rintro spent e - ⟨result, reserved, hout, -⟩
          cases hout
  · intro spent e hspent hout hskipped
    cases hskipped

/-! ### The assisted login asks once -/

/-- Having asked so often, the login asks at most `most` times in all. -/
def AsksUpTo (most asked : Nat) (login : ClalLogin PageAnswer Unit) : Prop :=
  login.Meets asks (· ≤ 1) (fun s _ => s ≤ most) asked

namespace AssistedLogin

variable {most asked : Nat} (hmost : most ≤ 1) (hasked : asked ≤ most)
include hmost hasked

/-- A failure asks for nothing, -/
theorem meets_fail (error : CollectionError) : AsksUpTo most asked (.fail error) :=
  And.intro (hasked.trans hmost) hasked

/-- and neither does an end, -/
theorem meets_ret : AsksUpTo most asked (.ret ()) := And.intro (hasked.trans hmost) hasked

/-- a page, -/
theorem meets_page {next : Nat → Bool → ClalLogin PageAnswer Unit}
    (hnext : ∀ value timedOut, AsksUpTo most asked (next value timedOut)) :
    AsksUpTo most asked (page next) := by
  refine And.intro (hasked.trans hmost) fun answer => ?_
  rcases answer with ⟨error | value, timedOut⟩
  · exact meets_fail hmost hasked error
  · exact hnext value timedOut

/-- the context, -/
theorem meets_context {effect : ContextEffect} {next : effect.Answer → ClalLogin PageAnswer Unit}
    (hnext : ∀ answer, AsksUpTo most asked (next answer)) :
    AsksUpTo most asked (.perform (.context effect) next) := And.intro (hasked.trans hmost) hnext

/-- a check for an abort, -/
theorem meets_throwIfAborted (timedOut : Bool) {next : ClalLogin PageAnswer Unit}
    (hnext : AsksUpTo most asked next) : AsksUpTo most asked (throwIfAborted timedOut next) := by
  refine meets_context hmost hasked fun aborted => ?_
  cases h : aborted || timedOut with
  | true => exact meets_fail hmost hasked _
  | false => exact hnext

/-- or a check of the session. -/
theorem meets_verifySession : AsksUpTo most asked verifySession := by
  refine meets_page hmost hasked fun _ _ => meets_page hmost hasked fun remainingSeconds timedOut => ?_
  refine meets_throwIfAborted hmost hasked timedOut (meets_context hmost hasked fun aborted => ?_)
  cases aborted with
  | true => exact meets_ret hmost hasked
  | false =>
      refine meets_context hmost hasked fun checkedAt => meets_context hmost hasked fun previous => ?_
      cases previous with
      | error e => exact meets_fail hmost hasked _
      | ok previous =>
          refine meets_context hmost hasked fun stored => ?_
          cases stored with
          | error e => exact meets_fail hmost hasked _
          | ok u => exact meets_ret hmost hasked

omit hmost hasked

/-- Entering a code asks for none. -/
theorem meets_enterCode : AsksUpTo 1 1 enterCode := by
  have hle := le_refl 1
  refine meets_page hle hle fun _ timedOut => meets_throwIfAborted hle hle timedOut ?_
  refine meets_page hle hle fun isCode timedOut => ?_
  by_cases hcode : isCode = 0
  · rw [if_pos hcode]
    exact meets_fail hle hle _
  rw [if_neg hcode]
  refine meets_throwIfAborted hle hle timedOut (meets_page hle hle fun isLogin _ => ?_)
  by_cases hlogin : isLogin ≠ 0
  · rw [if_pos hlogin]
    exact meets_fail hle hle _
  · rw [if_neg hlogin]
    exact meets_verifySession hle hle

/-- Requesting one asks once. -/
theorem meets_requestCode : AsksUpTo 1 0 requestCode := by
  have hle := le_refl 1
  have hzero := Nat.zero_le 1
  refine meets_page hle hzero fun _ _ => meets_page hle hzero fun _ timedOut => ?_
  refine meets_throwIfAborted hle hzero timedOut (And.intro hzero fun answer => ?_)
  cases answer with
  | error e => exact meets_fail hle hle e
  | ok u => exact meets_enterCode

/-- Cleaning up asks for nothing. -/
theorem meets_withCleanup {program : ClalLogin PageAnswer Unit} (h : AsksUpTo 1 0 program) :
    AsksUpTo 1 0 (withCleanup program) := by
  refine Async.meets_bind (Async.meets_attempt h) ?_ ?_
  · rintro asked out hasked -
    cases out with
    | ok u => exact meets_page (le_refl 1) hasked fun _ _ => meets_ret (le_refl 1) hasked
    | error e => exact meets_page (le_refl 1) hasked fun _ _ => meets_fail (le_refl 1) hasked e
  · exact fun asked _ hasked _ => hasked

end AssistedLogin

open AssistedLogin in
/-- However its page, its receiver and its signal behave. -/
theorem assistedClalLogin_asksAtMostOnce : AsksAtMostOnce assistedClalLogin := by
  have hle := le_refl 1
  have hzero := Nat.zero_le 1
  have hwhole : AsksUpTo 1 0 assistedClalLogin := by
    refine meets_page hle hzero fun _ _ => meets_page hle hzero fun isLogin _ => ?_
    by_cases hform : isLogin ≠ 0
    · rw [if_pos hform]
      exact meets_withCleanup meets_requestCode
    rw [if_neg hform]
    have hverify : AsksUpTo 0 0 verifySession := meets_verifySession hzero (le_refl 0)
    refine Async.meets_bind (Async.meets_attempt hverify) ?_ fun asked _ hasked _ => hasked
    rintro asked out - ⟨result, hout, hasked⟩
    obtain rfl := Nat.le_zero.mp hasked
    cases out with
    | ok u => exact meets_ret hle hzero
    | error e =>
        dsimp only
        split_ifs
        · exact meets_withCleanup meets_requestCode
        · exact meets_fail hle hzero e
  exact hwhole.imp fun _ _ _ _ => trivial

end

end SimplefinBridge
