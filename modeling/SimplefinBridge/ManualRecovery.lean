import Mathlib.Data.Finset.Basic
import SimplefinBridge.InvestmentStore
import SimplefinBridge.Library.Runs

/-!
# Manual recovery

A person may hand one code to a waiting login.  A recovery holds its provider
from its creation until it ends, and many recoveries share the set of held
providers.  Its inputs come in any order: the login prepares, reads and gives
up, the control API submits and cancels, the collection finishes, its signal
aborts, the timer fires.
-/

namespace SimplefinBridge

/-- Where a recovery stands. -/
inductive ManualRecoveryState
  | starting | awaiting_code | verifying | complete | failed | canceled | expired
  deriving DecidableEq, Repr

/-- What is told of a recovery. -/
structure ManualRecoveryStatus where
  challengeId : String
  state : ManualRecoveryState
  expiresAt : Option Instant
  errorCode : Option RecoveryErrorCode
  deriving DecidableEq, Repr

/-- Why a call is refused. -/
inductive ManualRecoveryError
  | recovery_in_progress | recovery_not_found | recovery_not_waiting | recovery_expired
  deriving DecidableEq, Repr

/-- `terminalStates` -/
def ManualRecoveryState.isTerminal : ManualRecoveryState → Bool
  | .complete | .failed | .canceled | .expired => true
  | _ => false

/-- How long a code may be entered. -/
def challengeLifetimeMilliseconds : Int := 180000

/-- What `createManualRecovery` closes over, and what it has called. -/
structure ManualRecovery where
  provider : String
  current : ManualRecoveryStatus
  prepared : Bool := false
  /-- A read waits for its code. -/
  pending : Bool := false
  /-- `removeAbortListener` is set. -/
  listening : Bool := false
  /-- The timer has neither fired nor been cleared. -/
  timer : Bool := true
  /-- Codes the pending read was resolved with. -/
  resolved : List String := []
  /-- How often a pending read was rejected. -/
  rejected : Nat := 0
  /-- Calls of `options.persist`. -/
  persisted : List ManualRecoveryStatus := []
  /-- Calls of `options.abort`. -/
  aborts : Nat := 0
  deriving DecidableEq, Repr

namespace ManualRecovery

/-- `recovery.status` -/
def status (r : ManualRecovery) : ManualRecoveryStatus := r.current

/-- `recovery.terminal` -/
def terminal (r : ManualRecovery) : Bool := r.current.state.isTerminal

/-- `release`, but for the provider's lease. -/
def released (r : ManualRecovery) : ManualRecovery :=
  { r with
    timer := false
    listening := false
    rejected := r.rejected + if r.pending then 1 else 0
    pending := false }

/-- `end` of a recovery that has not ended. -/
def ended (state : ManualRecoveryState) (errorCode : Option RecoveryErrorCode) (r : ManualRecovery) :
    ManualRecovery :=
  let r := { r with current := { r.current with state, expiresAt := none, errorCode } }
  { r.released with persisted := r.persisted ++ [r.status] }

/-- The collection was asked to stop. -/
def calledAbort (r : ManualRecovery) : ManualRecovery := { r with aborts := r.aborts + 1 }

end ManualRecovery

/-- The recoveries of the process and the providers they hold. -/
structure ManualRecoveries where
  providerLeases : Finset String := ∅
  recoveries : List ManualRecovery := []

/-- The held providers and the recovery that an event is for. -/
abbrev RecoveryScope := Finset String × ManualRecovery

/-- The recovery ends, once, and gives its lease back. -/
def endRecovery (state : ManualRecoveryState) (errorCode : Option RecoveryErrorCode)
    (s : RecoveryScope) : RecoveryScope :=
  if s.2.terminal then s else (s.1.erase s.2.provider, s.2.ended state errorCode)

/-- `options.abort()` -/
def abortCollection (s : RecoveryScope) : RecoveryScope := (s.1, s.2.calledAbort)

/-- The callback of the timer. -/
def fireTimer (s : RecoveryScope) : RecoveryScope :=
  if s.2.timer then
    abortCollection (endRecovery .expired (some .OTP_EXPIRED) (s.1, { s.2 with timer := false }))
  else s

/-- `source.prepare(signal)`; whether it answers a request. -/
def prepareRead (aborted : Bool) (s : RecoveryScope) : RecoveryScope × Bool :=
  if s.2.prepared || s.2.terminal || aborted then (s, false)
  else ((s.1, { s.2 with prepared := true }), true)

/-- `request.read(readSignal)`, where one of the signals may be aborted; whether
it waits. -/
def startRead (aborted : Bool) (s : RecoveryScope) : RecoveryScope × Bool :=
  if s.2.current.state ≠ .starting || aborted then (s, false)
  else
    ((s.1, { s.2 with
      current := { s.2.current with state := .awaiting_code }
      pending := true
      listening := true }), true)

/-- `request.cancel()`: login cleanup after consumption must not cancel the
following collection. -/
def giveUpRead (s : RecoveryScope) : RecoveryScope :=
  if s.2.current.state = .starting ∨ s.2.current.state = .awaiting_code then
    endRecovery .failed (some .OTP_REQUIRED) s
  else s

/-- One of the signals of a waiting read is aborted. -/
def abortRead (s : RecoveryScope) : RecoveryScope :=
  if s.2.listening then endRecovery .canceled (some .RECOVERY_CANCELED) s else s

/-- `/^\d{6}$/` -/
def isSmsCode (code : String) : Bool := code.toList.length = 6 && code.toList.all Char.isDigit

/-- The first lines of `submit`. -/
def expireIfDue (now : Instant) (s : RecoveryScope) : RecoveryScope :=
  if s.2.current.expiresAt.any (· ≤ now) then
    abortCollection (endRecovery .expired (some .OTP_EXPIRED) s)
  else s

/-- `submitCode(code)` -/
def submitCode (code : String) (now : Instant) (s : RecoveryScope) :
    RecoveryScope × Except ManualRecoveryError ManualRecoveryStatus :=
  let s := expireIfDue now s
  if s.2.current.state = .expired then (s, .error .recovery_expired)
  else if s.2.current.state ≠ .awaiting_code || !s.2.pending || !isSmsCode code then
    (s, .error .recovery_not_waiting)
  else
    let r := { s.2 with
      pending := false
      timer := false
      listening := false
      current := { s.2.current with state := .verifying, expiresAt := none }
      resolved := s.2.resolved ++ [code] }
    ((s.1, r), .ok r.status)

/-- `cancel()` -/
def cancelRecovery (s : RecoveryScope) :
    RecoveryScope × Except ManualRecoveryError ManualRecoveryStatus :=
  if s.2.current.state = .expired then (s, .error .recovery_expired)
  else if s.2.terminal && s.2.current.state ≠ .canceled then (s, .error .recovery_not_waiting)
  else
    let s := abortCollection (endRecovery .canceled (some .RECOVERY_CANCELED) s)
    (s, .ok s.2.status)

/-- `finish(success, errorCode = 'COLLECTION_FAILED')` -/
def finishRecovery (success : Bool) (errorCode : Option RecoveryErrorCode) (s : RecoveryScope) :
    RecoveryScope :=
  endRecovery (if success then .complete else .failed)
    (if success then none else some (errorCode.getD .COLLECTION_FAILED)) s

/-- What can happen to a recovery. -/
inductive RecoveryEvent
  | prepare (aborted : Bool)
  | read (aborted : Bool)
  | giveUp
  | abort
  | timer
  | submit (code : String) (now : Instant)
  | cancel
  | finish (success : Bool) (errorCode : Option RecoveryErrorCode)
  deriving DecidableEq, Repr

/-- A request exists once the recovery is prepared. -/
def recoveryStep (event : RecoveryEvent) (s : RecoveryScope) : RecoveryScope :=
  match event with
  | .prepare aborted => (prepareRead aborted s).1
  | .read aborted => if s.2.prepared then (startRead aborted s).1 else s
  | .giveUp => if s.2.prepared then giveUpRead s else s
  | .abort => abortRead s
  | .timer => fireTimer s
  | .submit code now => (submitCode code now s).1
  | .cancel => (cancelRecovery s).1
  | .finish success errorCode => finishRecovery success errorCode s

/-- `createManualRecovery`; `none` while the provider is held. -/
def createManualRecovery (provider requestId : String) (now : Instant) (leases : Finset String) :
    Option RecoveryScope :=
  if provider ∈ leases then none
  else some (insert provider leases, {
    provider
    current := ⟨requestId, .starting, some (now + challengeLifetimeMilliseconds), none⟩ })

/-- A recovery begins, or something happens to one. -/
inductive RecoveriesEvent
  | create (provider requestId : String) (now : Instant)
  | on (index : Nat) (event : RecoveryEvent)
  deriving DecidableEq, Repr

/-- One event among several recoveries. -/
def recoveriesStep (w : ManualRecoveries) (event : RecoveriesEvent) : ManualRecoveries :=
  match event with
  | .create provider requestId now =>
      match createManualRecovery provider requestId now w.providerLeases with
      | some (leases, r) => ⟨leases, w.recoveries ++ [r]⟩
      | none => w
  | .on index event =>
      match w.recoveries[index]? with
      | some r =>
          let s := recoveryStep event (w.providerLeases, r)
          ⟨s.1, w.recoveries.set index s.2⟩
      | none => w

/-! ## What an event does -/

/-- The fields that a login or a reader can tell apart. -/
structure SameCourse (r r' : ManualRecovery) : Prop where
  provider : r'.provider = r.provider
  current : r'.current = r.current
  resolved : r'.resolved = r.resolved
  persisted : r'.persisted = r.persisted

/-- Nothing has happened to it. -/
theorem SameCourse.refl (r : ManualRecovery) : SameCourse r r := ⟨rfl, rfl, rfl, rfl⟩

/-- What an event may do to a recovery and to the leases. -/
inductive RecoveryEffect (event : RecoveryEvent) (s : RecoveryScope) : RecoveryScope → Prop
  | kept (r' : ManualRecovery) (hsame : SameCourse s.2 r') : RecoveryEffect event s (s.1, r')
  | reads (hstate : s.2.current.state = .starting) :
      RecoveryEffect event s (s.1, { s.2 with
        current := { s.2.current with state := .awaiting_code }
        pending := true
        listening := true })
  | resolves (code : String) (now : Instant) (hevent : event = .submit code now)
      (hstate : s.2.current.state = .awaiting_code) (hcode : isSmsCode code = true)
      (hdue : ∀ expiry ∈ s.2.current.expiresAt, now < expiry) :
      RecoveryEffect event s (s.1, { s.2 with
        pending := false
        timer := false
        listening := false
        current := { s.2.current with state := .verifying, expiresAt := none }
        resolved := s.2.resolved ++ [code] })
  | ends (state : ManualRecoveryState) (errorCode : Option RecoveryErrorCode) (r' : ManualRecovery)
      (hstate : state.isTerminal = true) (hopen : s.2.terminal = false)
      (hsame : SameCourse (s.2.ended state errorCode) r') :
      RecoveryEffect event s (s.1.erase s.2.provider, r')

section
variable {event : RecoveryEvent} {s : RecoveryScope}

/-- It may do nothing. -/
theorem effect_kept : RecoveryEffect event s s := .kept s.2 (SameCourse.refl s.2)

/-- What has ended does not end again. -/
theorem endRecovery_of_terminal (h : s.2.terminal = true) (state : ManualRecoveryState)
    (errorCode : Option RecoveryErrorCode) : endRecovery state errorCode s = s := by
  unfold endRecovery
  rw [if_pos h]

/-- What is open ends, and its lease is free. -/
theorem endRecovery_of_open (h : s.2.terminal = false) (state : ManualRecoveryState)
    (errorCode : Option RecoveryErrorCode) :
    endRecovery state errorCode s = (s.1.erase s.2.provider, s.2.ended state errorCode) := by
  unfold endRecovery
  rw [h, if_neg Bool.false_ne_true]

/-- Ending is such an effect, -/
theorem effect_end {state : ManualRecoveryState} (hstate : state.isTerminal = true)
    (errorCode : Option RecoveryErrorCode) : RecoveryEffect event s (endRecovery state errorCode s) := by
  cases hterminal : s.2.terminal with
  | true =>
      rw [endRecovery_of_terminal hterminal]
      exact effect_kept
  | false =>
      rw [endRecovery_of_open hterminal]
      exact .ends state errorCode _ hstate hterminal (SameCourse.refl _)

/-- also when the collection is asked to stop, -/
theorem effect_end_abort {state : ManualRecoveryState} (hstate : state.isTerminal = true)
    (errorCode : Option RecoveryErrorCode) :
    RecoveryEffect event s (abortCollection (endRecovery state errorCode s)) := by
  cases hterminal : s.2.terminal with
  | true =>
      rw [endRecovery_of_terminal hterminal]
      exact .kept _ ⟨rfl, rfl, rfl, rfl⟩
  | false =>
      rw [endRecovery_of_open hterminal]
      exact .ends state errorCode _ hstate hterminal ⟨rfl, rfl, rfl, rfl⟩

/-- or when the time is over. -/
theorem effect_timer : RecoveryEffect event s (fireTimer s) := by
  unfold fireTimer
  by_cases htimer : s.2.timer = true
  · rw [if_pos htimer]
    cases hterminal : s.2.terminal with
    | true =>
        rw [@endRecovery_of_terminal (s.1, { s.2 with timer := false }) hterminal]
        exact .kept _ ⟨rfl, rfl, rfl, rfl⟩
    | false =>
        rw [@endRecovery_of_open (s.1, { s.2 with timer := false }) hterminal]
        exact .ends .expired (some .OTP_EXPIRED) _ rfl hterminal ⟨rfl, rfl, rfl, rfl⟩
  · rw [if_neg htimer]
    exact effect_kept

/-- So is submitting a code. -/
theorem effect_submit (code : String) (now : Instant) :
    RecoveryEffect (.submit code now) s (submitCode code now s).1 := by
  unfold submitCode
  by_cases hdue : (s.2.current.expiresAt.any fun expiry => decide (expiry ≤ now)) = true
  · -- past its expiry the recovery has ended, so the code is refused
    have hexpired : expireIfDue now s = abortCollection (endRecovery .expired (some .OTP_EXPIRED) s) := by
      unfold expireIfDue
      rw [if_pos hdue]
    have hnot : (expireIfDue now s).2.current.state ≠ .awaiting_code := by
      rw [hexpired]
      cases hterminal : s.2.terminal with
      | true =>
          rw [endRecovery_of_terminal hterminal]
          intro hstate
          change s.2.current.state = .awaiting_code at hstate
          unfold ManualRecovery.terminal at hterminal
          rw [hstate] at hterminal
          cases hterminal
      | false =>
          rw [endRecovery_of_open hterminal]
          exact fun hstate => nomatch hstate
    have heffect : RecoveryEffect (.submit code now) s (expireIfDue now s) := by
      rw [hexpired]
      exact effect_end_abort rfl _
    dsimp only
    by_cases hstate : (expireIfDue now s).2.current.state = .expired
    · rw [if_pos hstate]
      exact heffect
    · rw [if_neg hstate, if_pos]
      · exact heffect
      · rw [decide_eq_true hnot]
        rfl
  · have hsame : expireIfDue now s = s := by
      unfold expireIfDue
      rw [if_neg hdue]
    dsimp only
    rw [hsame]
    by_cases hstate : s.2.current.state = .expired
    · rw [if_pos hstate]
      exact effect_kept
    rw [if_neg hstate]
    by_cases hrefused : (decide (s.2.current.state ≠ .awaiting_code) || !s.2.pending ||
        !isSmsCode code) = true
    · rw [if_pos hrefused]
      exact effect_kept
    · rw [if_neg hrefused]
      have hwaits : (s.2.current.state = .awaiting_code ∧ s.2.pending = true) ∧
          isSmsCode code = true := by
        simpa using hrefused
      refine .resolves code now rfl hwaits.1.1 hwaits.2 fun expiry hexpiry => ?_
      rw [Option.mem_def.mp hexpiry] at hdue
      simpa using hdue

/-- **Every event has such an effect.** -/
theorem recoveryStep_effect (event : RecoveryEvent) (s : RecoveryScope) :
    RecoveryEffect event s (recoveryStep event s) := by
  cases event with
  | prepare aborted =>
      unfold recoveryStep prepareRead
      dsimp only
      split_ifs
      · exact effect_kept
      · exact .kept _ ⟨rfl, rfl, rfl, rfl⟩
  | read aborted =>
      unfold recoveryStep startRead
      dsimp only
      split_ifs with hprepared hrefused
      · exact effect_kept
      · exact .reads (by
          rw [Bool.or_eq_true, decide_eq_true_eq] at hrefused
          by_contra hstate
          exact hrefused (.inl hstate))
      · exact effect_kept
  | giveUp =>
      unfold recoveryStep giveUpRead
      dsimp only
      split_ifs
      · exact effect_end rfl _
      · exact effect_kept
      · exact effect_kept
  | abort =>
      unfold recoveryStep abortRead
      dsimp only
      split_ifs
      · exact effect_end rfl _
      · exact effect_kept
  | timer => exact effect_timer
  | submit code now => exact effect_submit code now
  | cancel =>
      unfold recoveryStep cancelRecovery
      dsimp only
      split_ifs
      · exact effect_kept
      · exact effect_kept
      · exact effect_end_abort rfl _
  | finish success errorCode =>
      unfold recoveryStep finishRecovery
      cases success with
      | true => exact effect_end rfl _
      | false => exact effect_end rfl _

end

/-! ## The life of a recovery -/

/-- What holds of a recovery at any time. -/
structure RecoveryInv (r : ManualRecovery) : Prop where
  one_code : r.resolved.length ≤ 1
  persisted : r.persisted = if r.terminal then [r.current] else []
  waiting : r.current.state = .starting ∨ r.current.state = .awaiting_code →
    r.resolved = [] ∧ r.current.expiresAt.isSome = true

/-- What an event may do to a recovery. -/
structure RecoveryMove (event : RecoveryEvent) (r r' : ManualRecovery) : Prop where
  provider : r'.provider = r.provider
  settled : r.terminal = true → r'.current = r.current
  code : r'.resolved = r.resolved ∨ ∃ code now expiry, event = .submit code now ∧
    r'.resolved = r.resolved ++ [code] ∧ isSmsCode code = true ∧ r.current.state = .awaiting_code ∧
    r.current.expiresAt = some expiry ∧ now < expiry

/-- The lease is given back at the moment the recovery ends. -/
def LeaseMove (s s' : RecoveryScope) : Prop :=
  (s'.1 = s.1 ∧ s'.2.terminal = s.2.terminal) ∨
    (s'.1 = s.1.erase s.2.provider ∧ s.2.terminal = false ∧ s'.2.terminal = true)

section
variable {event : RecoveryEvent} {s s' : RecoveryScope}

/-- What stays on its course keeps the invariant. -/
theorem SameCourse.inv {r r' : ManualRecovery} (h : SameCourse r r') (hinv : RecoveryInv r) :
    RecoveryInv r' := by
  obtain ⟨-, hcurrent, hresolved, hpersisted⟩ := h
  have hterminal : r'.terminal = r.terminal := by
    unfold ManualRecovery.terminal
    rw [hcurrent]
  constructor
  · rw [hresolved]
    exact hinv.one_code
  · rw [hpersisted, hterminal, hcurrent]
    exact hinv.persisted
  · rw [hcurrent, hresolved]
    exact hinv.waiting

/-- So does what has ended. -/
theorem ended_inv {r : ManualRecovery} {state : ManualRecoveryState}
    {errorCode : Option RecoveryErrorCode} (hstate : state.isTerminal = true)
    (hopen : r.terminal = false) (hinv : RecoveryInv r) : RecoveryInv (r.ended state errorCode) := by
  have hterminal : (r.ended state errorCode).terminal = true := hstate
  constructor
  · exact hinv.one_code
  · rw [if_pos hterminal]
    change r.persisted ++ [_] = [_]
    rw [hinv.persisted, hopen, if_neg Bool.false_ne_true]
    rfl
  · intro hwaiting
    change state = .starting ∨ state = .awaiting_code at hwaiting
    rcases hwaiting with rfl | rfl
    · cases hstate
    · cases hstate

/-- **Every event keeps the invariant.** -/
theorem RecoveryEffect.inv (heffect : RecoveryEffect event s s') (hinv : RecoveryInv s.2) :
    RecoveryInv s'.2 := by
  cases heffect with
  | kept r' hsame => exact hsame.inv hinv
  | reads hstate =>
      obtain ⟨hresolved, hexpiry⟩ := hinv.waiting (.inl hstate)
      refine ⟨hinv.one_code, ?_, fun _ => ⟨hresolved, hexpiry⟩⟩
      have hpersisted := hinv.persisted
      unfold ManualRecovery.terminal at hpersisted
      rw [hstate] at hpersisted
      exact hpersisted
  | resolves code now hevent hstate hcode hdue =>
      obtain ⟨hresolved, -⟩ := hinv.waiting (.inr hstate)
      refine ⟨?_, ?_, fun hwaiting => ?_⟩
      · change (s.2.resolved ++ [code]).length ≤ 1
        rw [hresolved]
        exact le_rfl
      · have hpersisted := hinv.persisted
        unfold ManualRecovery.terminal at hpersisted
        rw [hstate] at hpersisted
        exact hpersisted
      · rcases hwaiting with hwaiting | hwaiting
        · cases hwaiting
        · cases hwaiting
  | ends state errorCode r' hstate hopen hsame => exact hsame.inv (ended_inv hstate hopen hinv)

/-- A recovery only moves forward. -/
theorem RecoveryEffect.move (heffect : RecoveryEffect event s s') (hinv : RecoveryInv s.2) :
    RecoveryMove event s.2 s'.2 := by
  cases heffect with
  | kept r' hsame => exact ⟨hsame.provider, fun _ => hsame.current, .inl hsame.resolved⟩
  | reads hstate =>
      refine ⟨rfl, fun hterminal => ?_, .inl rfl⟩
      unfold ManualRecovery.terminal at hterminal
      rw [hstate] at hterminal
      cases hterminal
  | resolves code now hevent hstate hcode hdue =>
      obtain ⟨-, hexpiry⟩ := hinv.waiting (.inr hstate)
      obtain ⟨expiry, hexpiry⟩ := Option.isSome_iff_exists.mp hexpiry
      refine ⟨rfl, fun hterminal => ?_, .inr ⟨code, now, expiry, hevent, rfl, hcode, hstate, hexpiry,
        hdue expiry hexpiry⟩⟩
      unfold ManualRecovery.terminal at hterminal
      rw [hstate] at hterminal
      cases hterminal
  | ends state errorCode r' hstate hopen hsame =>
      refine ⟨hsame.provider, fun hterminal => ?_, .inl hsame.resolved⟩
      rw [hopen] at hterminal
      cases hterminal

/-- It gives its lease back once. -/
theorem RecoveryEffect.lease (heffect : RecoveryEffect event s s') : LeaseMove s s' := by
  cases heffect with
  | kept r' hsame =>
      refine .inl ⟨rfl, ?_⟩
      unfold ManualRecovery.terminal
      rw [hsame.current]
  | reads hstate =>
      refine .inl ⟨rfl, ?_⟩
      unfold ManualRecovery.terminal
      rw [hstate]
      rfl
  | resolves code now hevent hstate hcode hdue =>
      refine .inl ⟨rfl, ?_⟩
      unfold ManualRecovery.terminal
      rw [hstate]
      rfl
  | ends state errorCode r' hstate hopen hsame =>
      refine .inr ⟨rfl, hopen, ?_⟩
      unfold ManualRecovery.terminal
      rw [hsame.current]
      exact hstate

/-- It keeps its provider. -/
theorem RecoveryEffect.provider (heffect : RecoveryEffect event s s') :
    s'.2.provider = s.2.provider := by
  cases heffect with
  | kept r' hsame => exact hsame.provider
  | reads hstate => rfl
  | resolves code now hevent hstate hcode hdue => rfl
  | ends state errorCode r' hstate hopen hsame => exact hsame.provider

/-- Only a recovery that has not ended persists a status. -/
theorem RecoveryEffect.open_of_persisted (heffect : RecoveryEffect event s s')
    (h : s.2.persisted.length < s'.2.persisted.length) : s.2.terminal = false := by
  cases heffect with
  | kept r' hsame => exact absurd (congrArg List.length hsame.persisted) (Nat.ne_of_gt h)
  | reads hstate => exact absurd h (Nat.lt_irrefl _)
  | resolves code now hevent hstate hcode hdue => exact absurd h (Nat.lt_irrefl _)
  | ends state errorCode r' hstate hopen hsame => exact hopen

end

/-- A recovery has ended once it is canceled. -/
theorem cancelRecovery_terminal (s : RecoveryScope) : (cancelRecovery s).1.2.terminal = true := by
  unfold cancelRecovery
  split_ifs with hexpired hrefused
  · unfold ManualRecovery.terminal
    rw [hexpired]
    rfl
  · exact (Bool.and_eq_true_iff.mp hrefused).1
  · cases hterminal : s.2.terminal with
    | true =>
        rw [endRecovery_of_terminal hterminal]
        exact hterminal
    | false =>
        rw [endRecovery_of_open hterminal]
        rfl

/-! ## All recoveries of the process -/

namespace ManualRecoveries

/-- The recovery at an index has not ended and is for the provider. -/
def HoldsAt (w : ManualRecoveries) (provider : String) (index : Nat) : Prop :=
  ∃ r, w.recoveries[index]? = some r ∧ r.provider = provider ∧ r.terminal = false

/-- The invariant of all recoveries. -/
structure Inv (w : ManualRecoveries) : Prop where
  each : ∀ (index : Nat) (r : ManualRecovery), w.recoveries[index]? = some r → RecoveryInv r
  held : ∀ provider, provider ∈ w.providerLeases ↔ ∃ index, w.HoldsAt provider index
  alone : ∀ provider i j, w.HoldsAt provider i → w.HoldsAt provider j → i = j

/-- There is no recovery. -/
theorem inv_empty : Inv {} where
  each index r h := by simp at h
  held provider := by simp [HoldsAt]
  alone provider i j h := by simp [HoldsAt] at h

/-- A recovery is created for a provider that nobody holds. -/
theorem Inv.create {w : ManualRecoveries} (h : w.Inv) {provider : String} {r : ManualRecovery}
    (hfree : provider ∉ w.providerLeases) (hprovider : r.provider = provider)
    (hopen : r.terminal = false) (hinv : RecoveryInv r) :
    Inv ⟨insert provider w.providerLeases, w.recoveries ++ [r]⟩ := by
  have hholds : ∀ name index, HoldsAt ⟨insert provider w.providerLeases, w.recoveries ++ [r]⟩ name index ↔
      w.HoldsAt name index ∨ (name = provider ∧ index = w.recoveries.length) := by
    intro name index
    unfold HoldsAt
    rw [List.getElem?_append]
    by_cases hindex : index < w.recoveries.length
    · rw [if_pos hindex]
      constructor
      · exact .inl
      · rintro (hold | ⟨-, hlast⟩)
        · exact hold
        · omega
    · rw [if_neg hindex, List.getElem?_eq_none (not_lt.mp hindex)]
      constructor
      · rintro ⟨r', hr', rfl, -⟩
        have hlast : index - w.recoveries.length < 1 := (List.getElem?_eq_some_iff.mp hr').1
        have hzero : index - w.recoveries.length = 0 := by omega
        rw [hzero] at hr'
        obtain rfl := Option.some.inj hr'
        exact .inr ⟨hprovider, by omega⟩
      · rintro (⟨r', hr', -⟩ | ⟨rfl, rfl⟩)
        · cases hr'
        · rw [Nat.sub_self]
          exact ⟨r, rfl, hprovider, hopen⟩
  have hnone : ∀ index, ¬ w.HoldsAt provider index := fun index hindex =>
    hfree ((h.held provider).mpr ⟨index, hindex⟩)
  constructor
  · intro index r' hr'
    dsimp only at hr'
    rw [List.getElem?_append] at hr'
    split_ifs at hr' with hindex
    · exact h.each index r' hr'
    · have hmem := List.mem_of_getElem? hr'
      obtain rfl := List.mem_singleton.mp hmem
      exact hinv
  · intro name
    rw [Finset.mem_insert, h.held name]
    simp only [hholds]
    constructor
    · rintro (rfl | ⟨index, hindex⟩)
      · exact ⟨_, .inr ⟨rfl, rfl⟩⟩
      · exact ⟨index, .inl hindex⟩
    · rintro ⟨index, hindex | ⟨rfl, -⟩⟩
      · exact .inr ⟨index, hindex⟩
      · exact .inl rfl
  · intro name i j hi hj
    rcases (hholds name i).mp hi with holdI | ⟨rfl, rfl⟩
    · rcases (hholds name j).mp hj with holdJ | ⟨rfl, rfl⟩
      · exact h.alone name i j holdI holdJ
      · exact absurd holdI (hnone i)
    · rcases (hholds name j).mp hj with holdJ | ⟨-, rfl⟩
      · exact absurd holdJ (hnone j)
      · rfl

/-- An event for one recovery. -/
theorem Inv.on {w : ManualRecoveries} (h : w.Inv) {index : Nat} {r : ManualRecovery}
    (hr : w.recoveries[index]? = some r) {event : RecoveryEvent} {s : RecoveryScope}
    (heffect : RecoveryEffect event (w.providerLeases, r) s) :
    Inv ⟨s.1, w.recoveries.set index s.2⟩ := by
  have hinv := heffect.inv (h.each index r hr)
  have hprovider : s.2.provider = r.provider := (heffect.move (h.each index r hr)).provider
  have hlength := (List.getElem?_eq_some_iff.mp hr).1
  -- only the recovery at the index may have changed
  have hholds : ∀ name i, HoldsAt ⟨s.1, w.recoveries.set index s.2⟩ name i ↔
      if i = index then s.2.provider = name ∧ s.2.terminal = false else w.HoldsAt name i := by
    intro name i
    unfold HoldsAt
    dsimp only
    by_cases hi : i = index
    · subst hi
      rw [if_pos rfl, List.getElem?_set_self hlength]
      constructor
      · rintro ⟨r', hr', hname, hopen⟩
        obtain rfl := Option.some.inj hr'
        exact ⟨hname, hopen⟩
      · rintro ⟨hname, hopen⟩
        exact ⟨s.2, rfl, hname, hopen⟩
    · rw [if_neg hi, List.getElem?_set_ne fun heq => hi heq.symm]
  have hself : ∀ name, w.HoldsAt name index ↔ r.provider = name ∧ r.terminal = false := by
    intro name
    unfold HoldsAt
    rw [hr]
    constructor
    · rintro ⟨r', hr', hname, hopen⟩
      obtain rfl := Option.some.inj hr'
      exact ⟨hname, hopen⟩
    · rintro ⟨hname, hopen⟩
      exact ⟨r, rfl, hname, hopen⟩
  constructor
  · intro i r' hr'
    by_cases hi : i = index
    · subst hi
      dsimp only at hr'
      rw [List.getElem?_set_self hlength] at hr'
      obtain rfl := Option.some.inj hr'
      exact hinv
    · dsimp only at hr'
      rw [List.getElem?_set_ne fun heq => hi heq.symm] at hr'
      exact h.each i r' hr'
  · intro name
    simp only [hholds]
    rcases heffect.lease with ⟨hleases, hterminal⟩ | ⟨hleases, hopen, hterminal⟩
    · rw [hleases, h.held name]
      refine exists_congr fun i => ?_
      by_cases hi : i = index
      · subst hi
        rw [if_pos rfl, hself, hprovider, hterminal]
      · rw [if_neg hi]
    · rw [hleases, Finset.mem_erase, h.held name, hterminal]
      constructor
      · rintro ⟨hother, i, hi⟩
        refine ⟨i, ?_⟩
        by_cases heq : i = index
        · subst heq
          exact absurd ((hself name).mp hi).1.symm hother
        · rw [if_neg heq]
          exact hi
      · rintro ⟨i, hi⟩
        by_cases heq : i = index
        · rw [if_pos heq] at hi
          cases hi.2
        · rw [if_neg heq] at hi
          refine ⟨?_, i, hi⟩
          rintro rfl
          exact heq (h.alone _ i index hi ((hself _).mpr ⟨rfl, hopen⟩))
  · intro name i j hi hj
    have hback : ∀ i, HoldsAt ⟨s.1, w.recoveries.set index s.2⟩ name i → w.HoldsAt name i := by
      intro i hi
      rw [hholds] at hi
      by_cases heq : i = index
      · rw [if_pos heq] at hi
        rw [heq, hself]
        refine ⟨hprovider.symm.trans hi.1, ?_⟩
        rcases heffect.lease with ⟨-, hterminal⟩ | ⟨-, -, hterminal⟩
        · exact hterminal.symm.trans hi.2
        · rw [hi.2] at hterminal
          cases hterminal
      · rwa [if_neg heq] at hi
    exact h.alone name i j (hback i hi) (hback j hj)

end ManualRecoveries

/-! ## The life of every recovery -/

/-- What holds at any time: a code goes to the login at most once, the final
status is persisted once and is the status, and a provider is held exactly while
a recovery of it, and then only one, has not ended. -/
structure RecoveriesLaw (w : ManualRecoveries) : Prop where
  one_code : ∀ r ∈ w.recoveries, r.resolved.length ≤ 1
  persisted : ∀ r ∈ w.recoveries, r.persisted = if r.terminal then [r.status] else []
  held : ∀ provider, provider ∈ w.providerLeases ↔ ∃ index, w.HoldsAt provider index
  alone : ∀ provider i j, w.HoldsAt provider i → w.HoldsAt provider j → i = j

/-- What a step does to each recovery: a final status stays, and a code is handed
over only when it is submitted to a recovery that waits for one and is not due. -/
def RecoveriesMove (w : ManualRecoveries) (event : RecoveriesEvent) (w' : ManualRecoveries) : Prop :=
  ∀ (index : Nat) (r' : ManualRecovery), w'.recoveries[index]? = some r' →
    (w.recoveries[index]? = none ∧ r'.resolved = []) ∨
      ∃ r, w.recoveries[index]? = some r ∧ r'.provider = r.provider ∧
        (r.terminal = true → r'.status = r.status) ∧
        (r'.resolved = r.resolved ∨ ∃ code now expiry, event = .on index (.submit code now) ∧
          r'.resolved = r.resolved ++ [code] ∧ isSmsCode code = true ∧
          r.status.state = .awaiting_code ∧ r.status.expiresAt = some expiry ∧ now < expiry)

namespace ManualRecoveries

/-- The invariant gives the law. -/
theorem Inv.law {w : ManualRecoveries} (h : w.Inv) : RecoveriesLaw w where
  one_code r hr := by
    obtain ⟨index, hindex⟩ := List.mem_iff_getElem?.mp hr
    exact (h.each index r hindex).one_code
  persisted r hr := by
    obtain ⟨index, hindex⟩ := List.mem_iff_getElem?.mp hr
    exact (h.each index r hindex).persisted
  held := h.held
  alone := h.alone

/-- **Every event keeps the invariant.** -/
theorem Inv.step {w : ManualRecoveries} (h : w.Inv) (event : RecoveriesEvent) :
    Inv (recoveriesStep w event) ∧ RecoveriesMove w event (recoveriesStep w event) := by
  have hsame : RecoveriesMove w event w := fun index r hr =>
    .inr ⟨r, hr, rfl, fun _ => rfl, .inl rfl⟩
  cases event with
  | create provider requestId now =>
      unfold recoveriesStep createManualRecovery
      dsimp only
      by_cases hheld : provider ∈ w.providerLeases
      · rw [if_pos hheld]
        exact ⟨h, hsame⟩
      · rw [if_neg hheld]
        refine ⟨h.create hheld rfl rfl ⟨Nat.zero_le 1, rfl, fun _ => ⟨rfl, rfl⟩⟩, ?_⟩
        intro index r' hr'
        dsimp only at hr'
        rw [List.getElem?_append] at hr'
        split_ifs at hr' with hindex
        · exact hsame index r' hr'
        · obtain rfl := List.mem_singleton.mp (List.mem_of_getElem? hr')
          exact .inl ⟨List.getElem?_eq_none (not_lt.mp hindex), rfl⟩
  | on index event =>
      unfold recoveriesStep
      dsimp only
      cases hr : w.recoveries[index]? with
      | none => exact ⟨h, hsame⟩
      | some r =>
          have heffect := recoveryStep_effect event (w.providerLeases, r)
          refine ⟨h.on hr heffect, ?_⟩
          intro i r' hr'
          dsimp only at hr'
          by_cases hi : i = index
          · subst hi
            rw [List.getElem?_set_self (List.getElem?_eq_some_iff.mp hr).1] at hr'
            obtain rfl := Option.some.inj hr'
            obtain ⟨hprovider, hsettled, hcode⟩ := heffect.move (h.each i r hr)
            refine .inr ⟨r, hr, hprovider, hsettled, hcode.imp_right ?_⟩
            rintro ⟨code, now, expiry, rfl, hrest⟩
            exact ⟨code, now, expiry, rfl, hrest⟩
          · rw [List.getElem?_set_ne fun heq => hi heq.symm] at hr'
            exact hsame i r' hr'

end ManualRecoveries

/-- **The life of a recovery.**  In every run of any number of recoveries: at
most one code reaches the login of a recovery, and only one of six digits that
was submitted while the recovery waited for it and before its expiry; no event
changes a final status; the final status is persisted once, and is the status
from then on; and a provider is held exactly while its recovery has not ended. -/
theorem manual_recovery_lifecycle (events : List RecoveriesEvent) :
    Runs.Along recoveriesStep
      (fun w event w' => RecoveriesLaw w' ∧ RecoveriesMove w event w') {} events := by
  refine @Runs.along_of_inputs _ _ _ _ (fun _ => True) ManualRecoveries.Inv {} events
    (fun _ _ => trivial) ManualRecoveries.inv_empty fun w event h _ => ?_
  obtain ⟨hinv, hmove⟩ := h.step event
  exact ⟨hinv, hinv.law, hmove⟩

/-- A code is handed over, a second one is refused, and the recovery ends. -/
example : (Runs.run recoveriesStep {} [.create "clal" "id" 0, .on 0 (.prepare false),
    .on 0 (.read false), .on 0 (.submit "654321" 1000), .on 0 (.submit "123456" 1001),
    .on 0 (.finish true none)]).recoveries.map (fun r => (r.resolved, r.persisted)) =
      [(["654321"], [⟨"id", .complete, none, none⟩])] := by decide +kernel

end SimplefinBridge
