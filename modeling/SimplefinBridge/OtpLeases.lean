import SimplefinBridge.OtpDelivery

/-!
# A lease and the other clients

`arm` asks the phone only when no lease is live, but it asks with the lock
released, and when the phone does not answer, or the client went away, it
reports the receiver as unavailable without a second look.  A lease granted in
between is dropped: `lease_isolation_iff` says that this is the only way in which
one client's request costs another its lease.
-/

namespace SimplefinBridge

variable {host : Host}

/-! ## What may end a lease -/

/-- The lease is granted and has not expired. -/
structure LiveLease (w : OtpReceiver) (b : Broker) (r : Lease) : Prop where
  process : w.process = some b
  request : b.request = some r
  unexpired : w.now < r.expiresAt

/-- The lease is where it was, and as good as it was. -/
structure KeepsLease (b : Broker) (r : Lease) (w' : OtpReceiver) (b' : Broker) (r' : Lease) : Prop where
  live : LiveLease w' b' r'
  same : r'.id = r.id ∧ r'.provider = r.provider ∧ r'.armedAt = r.armedAt ∧ r'.expiresAt = r.expiresAt
  online : b.online = true → b'.online = true
  delivered : r'.delivered = r.delivered
  ambiguous : r'.ambiguous = r.ambiguous
  code : r.code ≠ "" → r'.code ≠ ""

/-- The receiver fails in the given state. -/
def FailsWith (state : ReceiverHealth) (w' : OtpReceiver) : Prop :=
  ∃ b' ∈ w'.process, b'.health = state ∧ b'.terminal = true

/-- What may end the lease: its expiry, its own cancellation or delivery, a
second message, and a failure or the end of the receiver. -/
def EndsLease (r : Lease) (w : OtpReceiver) (event : OtpEvent) (w' : OtpReceiver) : Prop :=
  match event with
  | .tick _ => r.expiresAt ≤ w'.now
  | .stop | .stopInWait _ _ => True
  | .setHealth online _ => online = false
  | .accept m =>
      (r.messageHash ≠ "" ∧ ∃ a ∈ w'.accepted, a.grant = w.grant ∧ a.message = m) ∨
        FailsWith .capacity_exceeded w'
  | .cancel provider id => r.provider = provider ∧ r.id = id
  | .wait provider id _ => r.provider = provider ∧ r.id = id ∧
      (w'.deliveries = w.deliveries ++ [⟨w.grant, r⟩] ∨ FailsWith .state_write_failed w')
  | .start _ | .armCheck _ _ | .armReady _ _ | .armCommit _ _ => False

/-- The step ends no live lease without cause. -/
def LeaseIsolated (w : OtpWorld) (event : OtpEvent) (w' : OtpWorld) : Prop :=
  ∀ b r, LiveLease w.toOtpReceiver b r →
    (∃ b' r', KeepsLease b r w'.toOtpReceiver b' r') ∨
      EndsLease r w.toOtpReceiver event w'.toOtpReceiver

/-- No readiness check fails while a lease is live. -/
def ReadyOrIdle (w : OtpWorld) (event : OtpEvent) (_ : OtpWorld) : Prop :=
  ∀ client provider b r, event = .armReady client false → w.arms client = .checking provider →
    ¬ LiveLease w.toOtpReceiver b r

/-! ## Every step -/

theorem KeepsLease.refl {w : OtpReceiver} {b : Broker} {r : Lease} (h : LiveLease w b r) :
    KeepsLease b r w b r :=
  ⟨h, ⟨rfl, rfl, rfl, rfl⟩, id, rfl, rfl, id⟩

/-- A broker that keeps its request and stays online keeps the lease. -/
theorem KeepsLease.ofRequest {w : OtpReceiver} {b b' : Broker} {r : Lease} (h : LiveLease w b r)
    (hrequest : b'.request = b.request) (honline : b.online = true → b'.online = true)
    {w' : OtpReceiver} (hprocess : w'.process = some b') (hnow : w'.now = w.now) :
    KeepsLease b r w' b' r :=
  ⟨⟨hprocess, hrequest.trans h.request, hnow ▸ h.unexpired⟩, ⟨rfl, rfl, rfl, rfl⟩, honline, rfl, rfl, id⟩

/-- A message leaves the lease as good as it was, unless it is the second. -/
theorem keepsLease_of_takes {w : OtpReceiver} {b : Broker} {r : Lease} {m : OtpMessage}
    {rule : ProviderRule} (h : LiveLease w b r) (htakes : Takes host w.now m b rule r)
    (hfirst : r.messageHash = "") :
    ∃ b' r', KeepsLease b r (w.afterTake host b m rule r) b' r' := by
  have hstored : storeCode (host.sha256 m.id) m.code r =
      { r with code := m.code, messageHash := host.sha256 m.id } := by
    unfold storeCode
    rw [if_neg fun hsecond => hsecond.1 hfirst]
  refine ⟨_, _, ⟨rfl, rfl, ?_⟩, ?_, id, ?_, ?_, ?_⟩
  · rw [hstored]
    exact h.unexpired
  · rw [hstored]
    exact ⟨rfl, rfl, rfl, rfl⟩
  · rw [hstored]
  · rw [hstored]
  · rw [hstored]
    intro _ hempty
    have hcode := htakes.code
    dsimp only at hempty
    rw [hempty] at hcode
    revert hcode
    decide

theorem setHealth_online (state : ReceiverHealth) (b : Broker) :
    (setHealth true state b).request = b.request ∧
      (b.online = true → (setHealth true state b).online = true) := by
  unfold setHealth
  by_cases hignored : (b.terminal && decide (state ≠ .stopping)) = true
  · rw [if_pos hignored]
    exact ⟨rfl, id⟩
  · rw [if_neg hignored]
    exact ⟨rfl, fun _ => rfl⟩

/-- A step that satisfies the condition ends no lease without cause. -/
theorem leaseIsolated_of_ready (w : OtpWorld) (event : OtpEvent) {w' : OtpWorld}
    (hready : ReadyOrIdle w event w') : LeaseIsolated w event (otpStep host w event) := by
  intro b r hlive
  rw [otpStep_running hlive.process]
  have hstay : ∃ b' r', KeepsLease b r w.toOtpReceiver b' r' := ⟨b, r, KeepsLease.refl hlive⟩
  cases event with
  | tick elapsed =>
      by_cases hexpired : r.expiresAt ≤ w.now + elapsed
      · exact .inr hexpired
      · exact .inl ⟨b, r, ⟨hlive.process, hlive.request, not_le.mp hexpired⟩, ⟨rfl, rfl, rfl, rfl⟩, id,
          rfl, rfl, id⟩
  | start config => exact .inl hstay
  | stop => exact .inr trivial
  | stopInWait provider id => exact .inr trivial
  | setHealth online state =>
      cases online with
      | false => exact .inr rfl
      | true =>
          obtain ⟨hrequest, honline⟩ := setHealth_online state b
          exact .inl ⟨_, r, KeepsLease.ofRequest hlive hrequest honline rfl rfl⟩
  | accept m =>
      unfold brokerStep
      dsimp only
      rcases accept_cases host w.now m b with ⟨-, hignored, hkept | hfull⟩ | ⟨rule, r', htakes, htook⟩
      · rw [hignored, if_neg Bool.false_ne_true]
        exact .inl ⟨_, r, KeepsLease.ofRequest hlive hkept.1 (fun h => hkept.2.trans h) rfl rfl⟩
      · rw [hignored, if_neg Bool.false_ne_true]
        exact .inr (.inr ⟨_, rfl, hfull⟩)
      · obtain rfl : r' = r := Option.mem_unique htakes.request hlive.request
        rw [htook, if_pos rfl]
        unfold OtpWorld.noteAccepted
        rw [htakes.configured]
        by_cases hfirst : r'.messageHash = ""
        · have hkept := keepsLease_of_takes hlive htakes hfirst
          exact .inl hkept
        · exact .inr (.inl ⟨hfirst, _, List.mem_append_right _ List.mem_cons_self, rfl, rfl⟩)
  | armCheck client provider =>
      unfold brokerStep
      dsimp only
      split_ifs
      · exact .inl hstay
      · exact .inl hstay
      · exact .inl hstay
  | armReady client ready =>
      unfold brokerStep
      dsimp only
      cases hstage : w.arms client with
      | idle => exact .inl hstay
      | committing provider => exact .inl hstay
      | checking provider =>
          cases ready with
          | true => exact .inl ⟨b, r, KeepsLease.ofRequest hlive rfl id rfl rfl⟩
          | false => exact absurd hlive (hready client provider b r rfl hstage)
  | armCommit client random =>
      unfold brokerStep
      dsimp only
      cases hstage : w.arms client with
      | idle => exact .inl hstay
      | checking provider => exact .inl hstay
      | committing provider =>
          dsimp only
          rcases armCommit_cases w.now provider random b with ⟨hsame, -⟩ | ⟨id, -, hexpired, -⟩
          · refine .inl ⟨b, r, ?_⟩
            unfold OtpWorld.noteArmed
            rw [hsame]
            split
            · exact KeepsLease.ofRequest hlive rfl (fun h => h) rfl rfl
            · exact KeepsLease.ofRequest hlive rfl (fun h => h) rfl rfl
          · exact absurd hlive.unexpired (not_lt.mpr (hexpired r hlive.request))
  | cancel provider id =>
      by_cases hown : r.provider = provider ∧ r.id = id
      · exact .inr hown
      · have hother : cancelLease provider id b = b := by
          unfold cancelLease
          rw [if_neg]
          rw [hlive.request]
          simpa using hown
        refine .inl ⟨b, r, ?_⟩
        unfold brokerStep
        dsimp only
        rw [hother]
        exact KeepsLease.ofRequest hlive rfl (fun h => h) rfl rfl
  | wait provider id outcome =>
      unfold brokerStep
      dsimp only
      cases hwait : waitOnce w.now provider id outcome w.file b with
      | mk file rest =>
          cases rest with
          | mk b' reply =>
              have heffect := waitOnce_effect w.now provider id outcome w.file b
              rw [hwait] at heffect
              unfold OtpWorld.noteReply
              cases heffect with
              | refused _ hreply =>
                  refine .inl ⟨b, r, ?_⟩
                  dsimp only
                  split
                  · exact absurd rfl (hreply _)
                  · exact KeepsLease.ofRequest hlive rfl (fun h => h) rfl rfl
              | failed r' hdelivers hid _ hfile =>
                  obtain rfl : r' = r := Option.mem_unique hdelivers.request hlive.request
                  exact .inr ⟨hid.1, hid.2, .inr ⟨_, rfl, rfl, rfl⟩⟩
              | delivered r' hdelivers hid =>
                  obtain rfl : r' = r := Option.mem_unique hdelivers.request hlive.request
                  exact .inr ⟨hid.1, hid.2, .inl rfl⟩

/-- A failed check drops the live lease. -/
theorem not_leaseIsolated_of_unready {w : OtpWorld} {client : Nat} {provider : OtpProvider} {b : Broker}
    {r : Lease} (hsound : b.Sound) (hstage : w.arms client = .checking provider)
    (hlive : LiveLease w.toOtpReceiver b r) :
    ¬ LeaseIsolated w (.armReady client false) (otpStep host w (.armReady client false)) := by
  intro hisolated
  rw [otpStep_running hlive.process] at hisolated
  rcases hisolated b r hlive with ⟨b', r', hkeeps⟩ | hcause
  · have hprocess := hkeeps.live.process
    unfold brokerStep at hprocess
    dsimp only at hprocess
    rw [hstage] at hprocess
    have hterminal : b.terminal = false := by
      rw [Bool.eq_false_iff]
      intro hterminal
      have hnone := (hsound hterminal).2
      rw [hlive.request] at hnone
      cases hnone
    have hrequest := hkeeps.live.request
    obtain rfl := Option.some.inj hprocess
    unfold reportReady setHealth at hrequest
    rw [hterminal] at hrequest
    cases hrequest
  · exact hcause

theorem sound_of_effect {w w' : OtpReceiver} {event : OtpEvent}
    (h : ∀ b ∈ w.process, b.Sound) (heffect : OtpEffect host w event w') :
    ∀ b ∈ w'.process, b.Sound := by
  intro b' hb'
  cases heffect with
  | idle => exact h b' hb'
  | tick elapsed => exact h b' hb'
  | started config hnone =>
      intro hterminal
      rw [(serveReceiver_spec hb').2.1] at hterminal
      cases hterminal
  | stopped _ b hprocess file hfile => cases hb'
  | quiet _ b b₁ hprocess hquiet file hfile =>
      obtain rfl := Option.some.inj hb'
      exact hquiet.sound (h b hprocess)
  | taken m b rule r hprocess htakes =>
      obtain rfl := Option.some.inj hb'
      intro hterminal
      have hoffline := (h b hprocess hterminal).1
      rw [htakes.online] at hoffline
      cases hoffline
  | armed _ b hprocess honline provider name =>
      obtain rfl := Option.some.inj hb'
      intro hterminal
      have hoffline := (h b hprocess hterminal).1
      rw [honline] at hoffline
      cases hoffline
  | delivered _ b r hprocess hdelivers =>
      obtain rfl := Option.some.inj hb'
      intro hterminal
      have hoffline := (h b hprocess hterminal).1
      rw [hdelivers.online] at hoffline
      cases hoffline

/-- **When leases are isolated.**  In every run, no live lease is lost or spoilt
but by its own cancellation, delivery or expiry, by a second message, or by the
receiver, exactly when no readiness check fails while a lease is live. -/
theorem lease_isolation_iff (host : Host) (now : Int) (events : List OtpEvent)
    (hreported : ∀ e ∈ events, e.Reported) :
    Runs.Along (otpStep host) LeaseIsolated (freshOtpWorld now) events ↔
      Runs.Along (otpStep host) ReadyOrIdle (freshOtpWorld now) events := by
  refine @Runs.along_iff_of_step_mem _ _ _ _ _ (fun w : OtpWorld => ∀ b ∈ w.process, b.Sound) _ _
    (fun b hb => nomatch hb) ?_ ?_
  · intro event _ w hsound
    constructor
    · intro hisolated client provider b r hevent hstage hlive
      subst hevent
      exact not_leaseIsolated_of_unready (hsound b hlive.process) hstage hlive hisolated
    · exact leaseIsolated_of_ready w event
  · intro event hevent w hsound _
    exact sound_of_effect hsound (@otpStep_effect host w event (hreported event hevent))

/-! ## A client that went away -/

/-- Two clients look; the second is granted a lease; then the first goes away
while the phone is being asked for it. -/
def cancelledArm : List OtpEvent :=
  [.start otpConfig, .setHealth true .ready, .armCheck 0 .clal, .armCheck 1 .clal, .armReady 1 true,
    .armCommit 1 (some "lease1")]

theorem cancelledArm_drops_lease :
    ¬ Runs.Along (otpStep otpHost) LeaseIsolated (freshOtpWorld goSecond)
      (cancelledArm ++ [.armReady 0 false]) := by
  intro hisolated
  have hlast := (Runs.along_append.mp hisolated).2.1
  have hgranted : (Runs.run (otpStep otpHost) (freshOtpWorld goSecond) cancelledArm).process.bind
      Broker.request =
      some ⟨"lease1", .clal, goSecond, goSecond + leaseDuration, "", "", false, false⟩ := by
    decide +kernel
  have hdropped : (otpStep otpHost (Runs.run (otpStep otpHost) (freshOtpWorld goSecond) cancelledArm)
      (.armReady 0 false)).process.bind Broker.request = none := by decide +kernel
  obtain ⟨b, hprocess, hrequest⟩ := Option.bind_eq_some_iff.mp hgranted
  have hlive : LiveLease (Runs.run (otpStep otpHost) (freshOtpWorld goSecond)
      cancelledArm).toOtpReceiver b _ := ⟨hprocess, hrequest, by decide +kernel⟩
  rcases hlast b _ hlive with ⟨b', r', hkeeps⟩ | hcause
  · rw [hkeeps.live.process, Option.bind_some, hkeeps.live.request] at hdropped
    cases hdropped
  · exact hcause

theorem lease_isolation_redelivery :
    Runs.Along (otpStep otpHost) LeaseIsolated (freshOtpWorld goSecond) redelivery ↔
      Runs.Along (otpStep otpHost) ReadyOrIdle (freshOtpWorld goSecond) redelivery :=
  lease_isolation_iff otpHost goSecond redelivery (by
    simp [redelivery, armAndReceive, OtpEvent.Reported, ReceiverHealth.isFailure])

end SimplefinBridge
