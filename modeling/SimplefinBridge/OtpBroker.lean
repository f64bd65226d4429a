import Mathlib.Data.List.Nodup
import SimplefinBridge.Host
import SimplefinBridge.Library.Runs

/-!
# The one-time-code broker

The broker receives text messages of the paired phone and hands the code of one
of them to the login that armed a *lease* for it.  One mutex guards its state,
so an operation is atomic from lock to unlock: `arm` is three such pieces (look,
ask the phone with the lock released, commit), and `wait` is one piece that is
repeated whenever the state changed.  A waiter may look again at any moment
here, so the channel that wakes it and its timer are left out.

`OtpWorld` is the broker with what surrounds it: the clock, the persisted list
of delivered messages, the arm requests in flight, and the history of what was
granted, accepted and delivered.  A time is the number of nanoseconds since the
zero time of the language.
-/

namespace SimplefinBridge

def goSecond : Int := 1000000000

def leaseDuration : Int := 180 * goSecond

def maxConsumed : Nat := 2048

inductive OtpProvider
  | clal | best_invest
  deriving DecidableEq, Repr

inductive ReceiverHealth
  | connecting | ready | reauth_required | disconnected | inactive | phone_unavailable
  | phone_syncing | state_write_failed | capacity_exceeded | candidate_overflow | stopping
  deriving DecidableEq, Repr

/-- A delivered message, by the hash of its id. -/
structure ConsumedEntry where
  hash : String
  atTime : Int
  deriving DecidableEq, Repr

structure Lease where
  id : String
  provider : OtpProvider
  armedAt : Int
  expiresAt : Int
  code : String := ""
  messageHash : String := ""
  delivered : Bool := false
  ambiguous : Bool := false
  deriving DecidableEq, Repr

/-- Senders and the code a text carries. -/
structure ProviderRule where
  senders : List String
  code : Option (String → String)

structure Broker where
  online : Bool
  health : ReceiverHealth
  terminal : Bool
  request : Option Lease
  providers : OtpProvider → Option ProviderRule
  /-- Hashes of candidate messages, with the time they were seen. -/
  seen : List (String × Int)
  consumed : List ConsumedEntry
  /-- `verifyReady != nil` -/
  verifies : Bool

/-! ## The persisted list -/

/-- The fraction of a second takes as many digits as it needs. -/
def fractionDigits (t : Int) : Nat :=
  ((List.range 10).find? fun digits => t % 1000000000 % 10 ^ (9 - digits) = 0).getD 9

/-- Bytes of a time in UTC, as JSON writes it. -/
def timeBytes (t : Int) : Nat :=
  20 + if fractionDigits t = 0 then 0 else 1 + fractionDigits t

/-- Bytes of `{"hash":"…","at":"…"},`. -/
def entryBytes (entry : ConsumedEntry) : Nat := 20 + entry.hash.utf8ByteSize + timeBytes entry.atTime

/-- Bytes of the list and its line break. -/
def jsonBytes (entries : List ConsumedEntry) : Nat := max 3 (2 + (entries.map entryBytes).sum)

/-- `readPrivateJSON` of the list, and the checks of `newBroker`; a missing file
is the only permitted empty state.  JSON gives back the entries it was given. -/
def readConsumed (file : Option (List ConsumedEntry)) : Option (List ConsumedEntry) :=
  match file with
  | none => some []
  | some entries =>
      if jsonBytes entries > 2 * 1024 * 1024 then none
      else if entries.length > maxConsumed then none
      else if entries.any fun e => e.hash.utf8ByteSize ≠ 64 || e.atTime = 0 then none
      else some entries

/-- `unicode.IsSpace` -/
def isGoSpace (c : Char) : Bool :=
  c.val ∈ [0x09, 0x0A, 0x0B, 0x0C, 0x0D, 0x20, 0x85, 0xA0, 0x1680, 0x2028, 0x2029, 0x202F, 0x205F,
    0x3000] || (0x2000 ≤ c.val && c.val ≤ 0x200A)

/-- What `configureProvider` asks of a sender. -/
def isSender (sender : String) : Bool :=
  sender ≠ "" && !(sender.toList.head?.any isGoSpace) && !(sender.toList.getLast?.any isGoSpace) &&
    sender.utf8ByteSize ≤ 100

/-- `none` for an invalid, missing or repeated configuration. -/
def configureProvider (provider : OtpProvider) (senders : List String) (code : String → String)
    (b : Broker) : Option Broker :=
  if !senders.all isSender then none
  else if senders = [] then none
  else if (b.providers provider).isSome then none
  else some { b with providers := Function.update b.providers provider (some ⟨senders, some code⟩) }

def emptyBroker : Broker where
  online := false
  health := .connecting
  terminal := false
  request := none
  providers _ := none
  seen := []
  consumed := []
  verifies := false

def newBroker (senders : List String) (clalCode : String → String)
    (file : Option (List ConsumedEntry)) : Option Broker := do
  let b ← configureProvider .clal senders clalCode emptyBroker
  let consumed ← readConsumed file
  return { b with consumed }

/-! ## Operations -/

/-- States that nothing but a restart leaves. -/
def ReceiverHealth.isFailure : ReceiverHealth → Bool
  | .state_write_failed | .capacity_exceeded | .candidate_overflow => true
  | _ => false

/-- A disconnect invalidates pending and delivered requests. -/
def setHealth (online : Bool) (state : ReceiverHealth) (b : Broker) : Broker :=
  if b.terminal && state ≠ .stopping then b
  else
    { b with
      terminal := b.terminal || state.isFailure
      online
      health := state
      request := if online then b.request else none }

/-- The receiver fails for good. -/
def failWith (state : ReceiverHealth) (b : Broker) : Broker :=
  { b with terminal := true, online := false, health := state, request := none }

/-- `^[0-9]{6}$` -/
def isOtpCode (code : String) : Bool := code.toList.length = 6 && code.toList.all Char.isDigit

/-- An incoming message, as the receiver passes it on. -/
structure OtpMessage where
  provider : OtpProvider
  id : String
  sender : String
  code : String
  timestamp : Int
  deriving DecidableEq, Repr

/-- The message can be for the lease: its provider is the lease's, and the
provider's rule lists the sender. -/
def isCandidate (m : OtpMessage) (b : Broker) : Bool :=
  match b.providers m.provider, b.request with
  | some rule, some r =>
      rule.code.isSome && r.provider = m.provider && m.id ≠ "" && rule.senders.contains m.sender &&
        isOtpCode m.code
  | _, _ => false

/-- The lease still takes messages, and the message is neither older than the
lease nor from the future. -/
def takesMessage (now : Int) (m : OtpMessage) (r : Lease) : Bool :=
  !r.delivered && !r.ambiguous && now < r.expiresAt && m.timestamp ≠ 0 && r.armedAt ≤ m.timestamp &&
    m.timestamp ≤ now + goSecond

/-- The candidates of the last ten minutes. -/
def recentlySeen (now : Int) (b : Broker) : List (String × Int) :=
  b.seen.filter fun entry => now - entry.2 ≤ 600 * goSecond

/-- A message that the lease takes: the first brings the code, a second makes
the lease ambiguous. -/
def storeCode (hash code : String) (r : Lease) : Lease :=
  if r.messageHash ≠ "" ∧ r.messageHash ≠ hash then { r with code := "", ambiguous := true }
  else { r with code := code, messageHash := hash }

/-- `accept`; the flag tells whether the lease took the message. -/
def accept (host : Host) (now : Int) (m : OtpMessage) (b : Broker) : Broker × Bool :=
  let hash := host.sha256 m.id
  if !isCandidate m b then (b, false)
  else if (b.seen.map Prod.fst).contains hash then (b, false)
  else if maxConsumed ≤ (recentlySeen now b).length then
    (failWith .capacity_exceeded { b with seen := recentlySeen now b }, false)
  else
    let b := { b with seen := (hash, now) :: recentlySeen now b }
    if (b.consumed.map ConsumedEntry.hash).contains hash then (b, false)
    else
      match b.request with
      | none => (b, false)
      | some r =>
          if !(b.online && takesMessage now m r) then (b, false)
          else ({ b with request := some (storeCode hash m.code r) }, true)

/-- What the receiver looks for in an incoming message: the matcher of the
current lease's provider. -/
def candidateRule (now : Int) (b : Broker) : Option (OtpProvider × (String → String)) := do
  let r ← b.request
  if !b.online || r.delivered || r.ambiguous || r.expiresAt ≤ now then none
  else
    let rule ← b.providers r.provider
    let code ← rule.code
    return (r.provider, code)

def providerEnabled (provider : OtpProvider) (b : Broker) : Bool :=
  (b.providers provider).any fun rule => rule.code.isSome

/-- The first look of `arm`: the phone is asked only when the lease could be
granted. -/
def canCheck (now : Int) (b : Broker) : Bool :=
  b.online && b.request.all fun r => r.expiresAt ≤ now

/-- What `arm` does with the phone's answer. -/
def reportReady (ready : Bool) (b : Broker) : Broker :=
  if ready then b else setHealth false .phone_unavailable b

inductive ArmReply
  | receiver_unavailable
  | request_active
  | granted (lease : Lease)
  deriving DecidableEq, Repr

/-- The end of `arm`; `random` is what `rand.Read` gave, in hexadecimal. -/
def armCommit (now : Int) (provider : OtpProvider) (random : Option String) (b : Broker) :
    Broker × ArmReply :=
  if !b.online then (b, .receiver_unavailable)
  else if b.request.any fun r => now < r.expiresAt then (b, .request_active)
  else
    match random with
    | none => (b, .receiver_unavailable)
    | some id =>
        let lease : Lease := { id, provider, armedAt := now, expiresAt := now + leaseDuration }
        ({ b with request := some lease }, .granted lease)

/-- `DELETE` of a lease. -/
def cancelLease (provider : OtpProvider) (id : String) (b : Broker) : Broker :=
  if b.request.any fun r => r.provider = provider && r.id = id then { b with request := none } else b

/-- How a write of the list can end. -/
inductive WriteOutcome
  | written
  /-- An error, and the old file is in place. -/
  | refused
  /-- An error after the new file was put in place. -/
  | renamed
  deriving DecidableEq, Repr

/-- The deliveries of the last seven days. -/
def recentlyConsumed (now : Int) (b : Broker) : List ConsumedEntry :=
  b.consumed.filter fun entry => now - entry.atTime < 7 * 24 * 3600 * goSecond

inductive WaitReply
  | receiver_unavailable
  | request_gone
  | ambiguous_code
  | code (lease : Lease)
  /-- The waiter sleeps until the state changes or its time is up. -/
  | pending
  deriving DecidableEq, Repr

/-- One look of `wait`; the reply with a code carries the lease as it was. -/
def waitOnce (now : Int) (provider : OtpProvider) (id : String) (outcome : WriteOutcome)
    (file : Option (List ConsumedEntry)) (b : Broker) :
    Option (List ConsumedEntry) × Broker × WaitReply :=
  if !b.online then (file, b, .receiver_unavailable)
  else
    match b.request with
    | none => (file, b, .request_gone)
    | some r =>
        if r.provider ≠ provider ∨ r.id ≠ id ∨ r.expiresAt ≤ now ∨ r.delivered = true then
          (file, b, .request_gone)
        else if r.ambiguous then (file, b, .ambiguous_code)
        else if r.code = "" then (file, b, .pending)
        else if maxConsumed ≤ (recentlyConsumed now b).length then (file, b, .receiver_unavailable)
        else
          let kept := recentlyConsumed now b ++ [⟨r.messageHash, now⟩]
          match outcome with
          | .written =>
              (some kept, { b with consumed := kept
                                   request := some { r with code := "", delivered := true } }, .code r)
          | .refused => (file, failWith .state_write_failed b, .receiver_unavailable)
          | .renamed => (some kept, failWith .state_write_failed b, .receiver_unavailable)

/-! ## The broker and its surroundings -/

/-- Where an arm request stands. -/
inductive ArmStage
  | idle
  /-- The phone is being asked. -/
  | checking (provider : OtpProvider)
  | committing (provider : OtpProvider)
  deriving DecidableEq, Repr

/-- A message that a lease took, with the senders its provider listed. -/
structure Acceptance where
  grant : Nat
  message : OtpMessage
  allowed : List String
  deriving DecidableEq, Repr

/-- A code that was returned, with the lease it was returned for. -/
structure Delivery where
  grant : Nat
  lease : Lease
  deriving DecidableEq, Repr

/-- The receiver: its clock, its file, its broker and its history. -/
structure OtpReceiver where
  now : Int
  /-- The persisted list; `none` while the file is missing. -/
  file : Option (List ConsumedEntry) := none
  /-- The broker of the running process. -/
  process : Option Broker := none
  /-- Leases granted so far; the last is the only one that can be current. -/
  grants : List Lease := []
  accepted : List Acceptance := []
  deliveries : List Delivery := []

/-- The receiver and the arm requests in flight. -/
structure OtpWorld extends OtpReceiver where
  arms : Nat → ArmStage := fun _ => .idle

/-- Before the first start. -/
def freshOtpWorld (now : Int) : OtpWorld := { now }

/-- What a start is given: the verified senders, and whether the phone can be
asked. -/
structure OtpConfig where
  clalSenders : List String
  clalCode : String → String
  bestInvest : Option (List String × (String → String))
  verifies : Bool

/-- `serveReceiver` up to the first connection. -/
def serveReceiver (config : OtpConfig) (file : Option (List ConsumedEntry)) : Option Broker := do
  let b ← newBroker config.clalSenders config.clalCode file
  let b ← match config.bestInvest with
    | none => some b
    | some (senders, code) => configureProvider .best_invest senders code b
  return { b with verifies := config.verifies }

inductive OtpEvent
  /-- Time passes. -/
  | tick (elapsed : Nat)
  | start (config : OtpConfig)
  /-- The process ends. -/
  | stop
  /-- The process ends inside `wait`, after the new list was put in place. -/
  | stopInWait (provider : OtpProvider) (id : String)
  | setHealth (online : Bool) (state : ReceiverHealth)
  | accept (message : OtpMessage)
  | armCheck (client : Nat) (provider : OtpProvider)
  /-- `verifyReady` returns. -/
  | armReady (client : Nat) (ready : Bool)
  | armCommit (client : Nat) (random : Option String)
  | cancel (provider : OtpProvider) (id : String)
  | wait (provider : OtpProvider) (id : String) (outcome : WriteOutcome)

/-- The index of the current lease. -/
def OtpReceiver.grant (w : OtpReceiver) : Nat := w.grants.length - 1

namespace OtpWorld

def stopped (w : OtpWorld) : OtpWorld := { w with process := none, arms := fun _ => .idle }

/-- Record a message that the lease took. -/
def noteAccepted (m : OtpMessage) (b : Broker) (w : OtpWorld) : OtpWorld :=
  { w with accepted := w.accepted ++
      [⟨w.grant, m, ((b.providers m.provider).map ProviderRule.senders).getD []⟩] }

def noteReply (reply : WaitReply) (w : OtpWorld) : OtpWorld :=
  match reply with
  | .code lease => { w with deliveries := w.deliveries ++ [⟨w.grant, lease⟩] }
  | _ => w

def noteArmed (reply : ArmReply) (w : OtpWorld) : OtpWorld :=
  match reply with
  | .granted lease => { w with grants := w.grants ++ [lease] }
  | _ => w

end OtpWorld

/-- What an event does while a broker runs. -/
def brokerStep (host : Host) (w : OtpWorld) (b : Broker) : OtpEvent → OtpWorld
  | .tick elapsed => { w with now := w.now + elapsed }
  | .start _ => w
  | .stop => w.stopped
  | .stopInWait provider id =>
      { w.stopped with file := (waitOnce w.now provider id .written w.file b).1 }
  | .setHealth online state => { w with process := some (setHealth online state b) }
  | .accept m =>
      let (b', took) := accept host w.now m b
      let w' := { w with process := some b' }
      if took then w'.noteAccepted m b else w'
  | .armCheck client provider =>
      if w.arms client = .idle ∧ providerEnabled provider b = true then
        let stage := if canCheck w.now b && b.verifies then ArmStage.checking provider
          else .committing provider
        { w with arms := Function.update w.arms client stage }
      else w
  | .armReady client ready =>
      match w.arms client with
      | .checking provider =>
          { w with process := some (reportReady ready b)
                   arms := Function.update w.arms client (.committing provider) }
      | _ => w
  | .armCommit client random =>
      match w.arms client with
      | .committing provider =>
          let (b', reply) := armCommit w.now provider random b
          { w with process := some b', arms := Function.update w.arms client .idle }.noteArmed reply
      | _ => w
  | .cancel provider id => { w with process := some (cancelLease provider id b) }
  | .wait provider id outcome =>
      let (file, b', reply) := waitOnce w.now provider id outcome w.file b
      { w with file, process := some b' }.noteReply reply

/-- One step of the whole system. -/
def otpStep (host : Host) (w : OtpWorld) (event : OtpEvent) : OtpWorld :=
  match w.process with
  | some b => brokerStep host w b event
  | none =>
      match event with
      | .tick elapsed => { w with now := w.now + elapsed }
      | .start config => { w with process := serveReceiver config w.file }
      | _ => w

/-! ## What the operations do -/

/-- Once the receiver failed for good it is offline and holds no lease. -/
def Broker.Sound (b : Broker) : Prop := b.terminal = true → b.online = false ∧ b.request = none

/-- An operation that neither grants nor fills nor delivers a lease: at most it
drops the lease, and candidates older than ten minutes. -/
structure Quiet (now : Int) (b b' : Broker) : Prop where
  consumed : b'.consumed = b.consumed
  request : b'.request = none ∨ b'.request = b.request
  seen : ∀ entry ∈ b.seen, entry ∈ b'.seen ∨ 600 * goSecond < now - entry.2
  terminal : b.terminal = true → b'.terminal = true
  sound : b.Sound → b'.Sound

theorem Quiet.refl (now : Int) (b : Broker) : Quiet now b b :=
  ⟨rfl, .inr rfl, fun _ h => .inl h, fun h => h, fun h => h⟩

theorem quiet_failWith (now : Int) (state : ReceiverHealth) (b : Broker) :
    Quiet now b (failWith state b) :=
  ⟨rfl, .inl rfl, fun _ h => .inl h, fun _ => rfl, fun _ _ => ⟨rfl, rfl⟩⟩

/-- The receiver is not reported online in a state that ends it. -/
theorem quiet_setHealth (now : Int) {online : Bool} {state : ReceiverHealth}
    (h : online = true → state.isFailure = false ∧ state ≠ .stopping) (b : Broker) :
    Quiet now b (setHealth online state b) := by
  unfold setHealth
  by_cases hignored : (b.terminal && decide (state ≠ .stopping)) = true
  · rw [if_pos hignored]
    exact Quiet.refl now b
  · rw [if_neg hignored]
    refine ⟨rfl, ?_, fun _ h => .inl h, fun hterminal => ?_, fun _ hterminal => ?_⟩
    · cases online with
      | true => exact .inr rfl
      | false => exact .inl rfl
    · change (b.terminal || state.isFailure) = true
      rw [hterminal, Bool.true_or]
    · change (b.terminal || state.isFailure) = true at hterminal
      cases online with
      | false => exact ⟨rfl, rfl⟩
      | true =>
          obtain ⟨hfailure, hstopping⟩ := h rfl
          rw [hfailure, Bool.or_false] at hterminal
          rw [hterminal] at hignored
          exact absurd (decide_eq_true hstopping) hignored

theorem quiet_reportReady (now : Int) (ready : Bool) (b : Broker) :
    Quiet now b (reportReady ready b) := by
  cases ready with
  | true => exact Quiet.refl now b
  | false =>
      change Quiet now b (setHealth false .phone_unavailable b)
      exact quiet_setHealth now (fun h => absurd h Bool.false_ne_true) b

theorem quiet_cancelLease (now : Int) (provider : OtpProvider) (id : String) (b : Broker) :
    Quiet now b (cancelLease provider id b) := by
  unfold cancelLease
  split_ifs
  · exact ⟨rfl, .inl rfl, fun _ h => .inl h, fun h => h, fun h hterminal => ⟨(h hterminal).1, rfl⟩⟩
  · exact Quiet.refl now b

/-- A candidate is recorded as seen. -/
theorem quiet_seen (now : Int) (hash : String) (b : Broker) :
    Quiet now b { b with seen := (hash, now) :: recentlySeen now b } := by
  refine ⟨rfl, .inr rfl, fun entry hentry => ?_, fun h => h, fun h => h⟩
  by_cases hrecent : now - entry.2 ≤ 600 * goSecond
  · exact .inl (List.mem_cons_of_mem _ (List.mem_filter.mpr ⟨hentry, decide_eq_true hrecent⟩))
  · exact .inr (not_le.mp hrecent)

/-- The lease takes the message. -/
structure Takes (host : Host) (now : Int) (m : OtpMessage) (b : Broker) (rule : ProviderRule)
    (r : Lease) : Prop where
  configured : b.providers m.provider = some rule
  request : b.request = some r
  provider : r.provider = m.provider
  matcher : rule.code ≠ none
  sender : m.sender ∈ rule.senders
  code : isOtpCode m.code = true
  unseen : host.sha256 m.id ∉ b.seen.map Prod.fst
  unconsumed : host.sha256 m.id ∉ b.consumed.map ConsumedEntry.hash
  online : b.online = true
  undelivered : r.delivered = false
  unambiguous : r.ambiguous = false
  unexpired : now < r.expiresAt
  armed : r.armedAt ≤ m.timestamp
  past : m.timestamp ≤ now + goSecond

theorem accept_cases (host : Host) (now : Int) (m : OtpMessage) (b : Broker) :
    (Quiet now b (accept host now m b).1 ∧ (accept host now m b).2 = false ∧
        ((accept host now m b).1.request = b.request ∧ (accept host now m b).1.online = b.online ∨
          (accept host now m b).1.health = .capacity_exceeded ∧
            (accept host now m b).1.terminal = true)) ∨
      ∃ rule r, Takes host now m b rule r ∧ accept host now m b =
        ({ b with seen := (host.sha256 m.id, now) :: recentlySeen now b
                  request := some (storeCode (host.sha256 m.id) m.code r) }, true) := by
  unfold accept
  dsimp only
  by_cases hcandidate : (!isCandidate m b) = true
  · rw [if_pos hcandidate]
    exact .inl ⟨Quiet.refl now b, rfl, .inl ⟨rfl, rfl⟩⟩
  rw [if_neg hcandidate]
  by_cases hseen : (b.seen.map Prod.fst).contains (host.sha256 m.id) = true
  · rw [if_pos hseen]
    exact .inl ⟨Quiet.refl now b, rfl, .inl ⟨rfl, rfl⟩⟩
  rw [if_neg hseen]
  have hquiet := quiet_seen now (host.sha256 m.id) b
  by_cases hfull : maxConsumed ≤ (recentlySeen now b).length
  · rw [if_pos hfull]
    refine .inl ⟨⟨rfl, .inl rfl, fun entry hentry => ?_, fun _ => rfl, fun _ _ => ⟨rfl, rfl⟩⟩, rfl,
      .inr ⟨rfl, rfl⟩⟩
    by_cases hrecent : now - entry.2 ≤ 600 * goSecond
    · exact .inl (List.mem_filter.mpr ⟨hentry, decide_eq_true hrecent⟩)
    · exact .inr (not_le.mp hrecent)
  rw [if_neg hfull]
  by_cases hconsumed : (b.consumed.map ConsumedEntry.hash).contains (host.sha256 m.id) = true
  · rw [if_pos hconsumed]
    exact .inl ⟨hquiet, rfl, .inl ⟨rfl, rfl⟩⟩
  rw [if_neg hconsumed]
  cases hrequest : b.request with
  | none => exact .inl ⟨by simpa only [hrequest] using hquiet, rfl, .inl ⟨rfl, rfl⟩⟩
  | some r =>
      dsimp only
      by_cases htakes : (!(b.online && takesMessage now m r)) = true
      · rw [if_pos htakes]
        exact .inl ⟨by simpa only [hrequest] using hquiet, rfl, .inl ⟨rfl, rfl⟩⟩
      rw [if_neg htakes]
      refine .inr ?_
      cases hrule : b.providers m.provider with
      | none => simp [isCandidate, hrule] at hcandidate
      | some rule =>
          have hlisted : rule.code ≠ none ∧ r.provider = m.provider ∧ m.id ≠ "" ∧
              m.sender ∈ rule.senders ∧ isOtpCode m.code = true := by
            simpa [isCandidate, hrule, hrequest, and_assoc] using hcandidate
          have hopen : b.online = true ∧ r.delivered = false ∧ r.ambiguous = false ∧
              now < r.expiresAt ∧ m.timestamp ≠ 0 ∧ r.armedAt ≤ m.timestamp ∧
              m.timestamp ≤ now + goSecond := by
            simpa [takesMessage, and_assoc] using htakes
          obtain ⟨hmatcher, hprovider, -, hsender, hcode⟩ := hlisted
          obtain ⟨honline, hdelivered, hambiguous, hexpires, -, harmed, hpast⟩ := hopen
          refine ⟨rule, r, ?_, rfl⟩
          exact {
            configured := hrule
            request := hrequest
            provider := hprovider
            matcher := hmatcher
            sender := hsender
            code := hcode
            unseen := by simpa using hseen
            unconsumed := by simpa using hconsumed
            online := honline
            undelivered := hdelivered
            unambiguous := hambiguous
            unexpired := hexpires
            armed := harmed
            past := hpast }

/-- A lease takes only what the receiver was told to look for. -/
theorem Takes.candidateRule {host : Host} {now : Int} {m : OtpMessage} {b : Broker}
    {rule : ProviderRule} {r : Lease} (h : Takes host now m b rule r) :
    ∃ code, candidateRule now b = some (m.provider, code) := by
  obtain ⟨code, hcode⟩ := Option.ne_none_iff_exists'.mp h.matcher
  refine ⟨code, ?_⟩
  simp [SimplefinBridge.candidateRule, h.request, h.online, h.undelivered, h.unambiguous,
    h.unexpired, h.provider, h.configured, hcode]

theorem armCommit_cases (now : Int) (provider : OtpProvider) (random : Option String)
    (b : Broker) :
    ((armCommit now provider random b).1 = b ∧ ∀ lease, (armCommit now provider random b).2 ≠
        .granted lease) ∨
      ∃ id, b.online = true ∧ (∀ r ∈ b.request, r.expiresAt ≤ now) ∧
        armCommit now provider random b =
          ({ b with request := some ⟨id, provider, now, now + leaseDuration, "", "", false, false⟩ },
            .granted ⟨id, provider, now, now + leaseDuration, "", "", false, false⟩) := by
  unfold armCommit
  by_cases hoffline : (!b.online) = true
  · rw [if_pos hoffline]
    exact .inl ⟨rfl, fun _ h => nomatch h⟩
  rw [if_neg hoffline]
  by_cases hactive : (b.request.any fun r => decide (now < r.expiresAt)) = true
  · rw [if_pos hactive]
    exact .inl ⟨rfl, fun _ h => nomatch h⟩
  rw [if_neg hactive]
  cases random with
  | none => exact .inl ⟨rfl, fun _ h => nomatch h⟩
  | some id =>
      refine .inr ⟨id, by simpa using hoffline, fun r hr => ?_, rfl⟩
      rw [Option.mem_def.mp hr] at hactive
      simpa using hactive

/-- The waiter finds a code that it can deliver. -/
structure Delivers (now : Int) (b : Broker) (r : Lease) : Prop where
  online : b.online = true
  request : b.request = some r
  unexpired : now < r.expiresAt
  undelivered : r.delivered = false
  unambiguous : r.ambiguous = false
  code : r.code ≠ ""
  room : (recentlyConsumed now b).length < maxConsumed

/-- The list that the delivery persists. -/
def keptConsumed (now : Int) (b : Broker) (r : Lease) : List ConsumedEntry :=
  recentlyConsumed now b ++ [⟨r.messageHash, now⟩]

/-- What a look of `wait` leaves behind. -/
inductive WaitEffect (now : Int) (provider : OtpProvider) (id : String)
    (file : Option (List ConsumedEntry)) (b : Broker) :
    Option (List ConsumedEntry) × Broker × WaitReply → Prop
  | refused (reply : WaitReply) (hreply : ∀ lease, reply ≠ .code lease) :
      WaitEffect now provider id file b (file, b, reply)
  | failed (r : Lease) (h : Delivers now b r) (hid : r.provider = provider ∧ r.id = id)
      (file' : Option (List ConsumedEntry))
      (hfile : file' = file ∨ file' = some (keptConsumed now b r)) :
      WaitEffect now provider id file b
        (file', failWith .state_write_failed b, .receiver_unavailable)
  | delivered (r : Lease) (h : Delivers now b r) (hid : r.provider = provider ∧ r.id = id) :
      WaitEffect now provider id file b
        (some (keptConsumed now b r),
          { b with consumed := keptConsumed now b r
                   request := some { r with code := "", delivered := true } }, .code r)

theorem waitOnce_effect (now : Int) (provider : OtpProvider) (id : String)
    (outcome : WriteOutcome) (file : Option (List ConsumedEntry)) (b : Broker) :
    WaitEffect now provider id file b (waitOnce now provider id outcome file b) := by
  unfold waitOnce
  by_cases hoffline : (!b.online) = true
  · rw [if_pos hoffline]
    exact .refused _ fun _ h => nomatch h
  rw [if_neg hoffline]
  cases hrequest : b.request with
  | none => exact .refused _ fun _ h => nomatch h
  | some r =>
      dsimp only
      by_cases hgone : r.provider ≠ provider ∨ r.id ≠ id ∨ r.expiresAt ≤ now ∨ r.delivered = true
      · rw [if_pos hgone]
        exact .refused _ fun _ h => nomatch h
      rw [if_neg hgone]
      by_cases hambiguous : r.ambiguous = true
      · rw [if_pos hambiguous]
        exact .refused _ fun _ h => nomatch h
      rw [if_neg hambiguous]
      by_cases hcode : r.code = ""
      · rw [if_pos hcode]
        exact .refused _ fun _ h => nomatch h
      rw [if_neg hcode]
      by_cases hfull : maxConsumed ≤ (recentlyConsumed now b).length
      · rw [if_pos hfull]
        exact .refused _ fun _ h => nomatch h
      rw [if_neg hfull]
      push Not at hgone
      obtain ⟨hprovider, hid, hexpires, hdelivered⟩ := hgone
      have hdelivers : Delivers now b r := ⟨by simpa using hoffline, hrequest, hexpires,
        by simpa using hdelivered, by simpa using hambiguous, hcode, not_le.mp hfull⟩
      cases outcome with
      | written => exact .delivered r hdelivers ⟨hprovider, hid⟩
      | refused => exact .failed r hdelivers ⟨hprovider, hid⟩ _ (.inl rfl)
      | renamed => exact .failed r hdelivers ⟨hprovider, hid⟩ _ (.inr rfl)

theorem configureProvider_spec {provider : OtpProvider} {senders : List String}
    {code : String → String} {b b' : Broker} (h : configureProvider provider senders code b = some b') :
    b'.request = b.request ∧ b'.terminal = b.terminal ∧ b'.consumed = b.consumed := by
  unfold configureProvider at h
  split_ifs at h
  obtain rfl := Option.some.inj h
  exact ⟨rfl, rfl, rfl⟩

/-- A started broker knows the persisted list and holds no lease. -/
theorem serveReceiver_spec {config : OtpConfig} {file : Option (List ConsumedEntry)} {b : Broker}
    (h : serveReceiver config file = some b) :
    b.request = none ∧ b.terminal = false ∧ readConsumed file = some b.consumed := by
  unfold serveReceiver newBroker at h
  obtain ⟨b₁, hclal, h⟩ := Option.bind_eq_some_iff.mp h
  obtain ⟨b₀, hconfigured, hloaded⟩ := Option.bind_eq_some_iff.mp hclal
  obtain ⟨consumed, hread, hnew⟩ := Option.bind_eq_some_iff.mp hloaded
  obtain rfl := Option.some.inj hnew
  obtain ⟨hrequest, hterminal, -⟩ := configureProvider_spec hconfigured
  cases hbest : config.bestInvest with
  | none =>
      rw [hbest] at h
      obtain rfl := Option.some.inj h
      exact ⟨hrequest, hterminal, hread⟩
  | some best =>
      rw [hbest] at h
      obtain ⟨b₂, hsecond, h⟩ := Option.bind_eq_some_iff.mp h
      obtain rfl := Option.some.inj h
      obtain ⟨hrequest', hterminal', hconsumed'⟩ := configureProvider_spec hsecond
      exact ⟨hrequest'.trans hrequest, hterminal'.trans hterminal, hread.trans (by rw [hconsumed'])⟩

end SimplefinBridge
