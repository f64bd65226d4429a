import Mathlib.Data.Finset.Insert
import Mathlib.Data.Finset.Erase
import Mathlib.Tactic.IntervalCases
import SimplefinBridge.Library.Interleaving

/-!
# The lock of a browser profile

The collectors of a provider share one browser profile.  A directory beside it
is its lock: the session that makes it owns the profile, writes its token into
`owner.json`, and removes the directory when its browser has closed.  Any number
of sessions run at any time, every call on the files can fail, a process can be
killed between two calls, and an operator can move a lock away.
-/

namespace SimplefinBridge

open Runs (Along)

/-- Clal's profile, or Best Invest's. -/
inductive ProfileKind
  | clal | bestInvest
  deriving DecidableEq, Repr

/-- The directory that stands for the lock. -/
structure LockDirectory where
  /-- The session that made it. -/
  maker : Nat
  /-- `owner.json`, if there is one, with the token that can be read in it. -/
  owner : Option (Option String)
  deriving DecidableEq, Repr

/-- The profile on the disk, with what runs on it. -/
structure BrowserProfile where
  lock : Option LockDirectory
  /-- The sessions whose browser runs on the profile. -/
  running : Finset Nat
  deriving DecidableEq

/-- How far a session has come; what it is named after has been done. -/
inductive SessionPhase
  | idle | made | secured | written | unwritten | owning | browsing | closing | closed | checked
  | emptied | released | busy | failed | crashed
  deriving DecidableEq, Repr

/-- How a call ends; one that breaks off has begun its work. -/
inductive CallOutcome
  | returns | breaks | throws
  deriving DecidableEq, Repr

/-- What happens to a session. -/
inductive ProfileMove
  | call (outcome : CallOutcome)
  /-- The browser of the session ends by itself. -/
  | exits
  | crashes
  deriving DecidableEq, Repr

/-- Who moves. -/
inductive ProfileParty
  | session (n : Nat)
  | operator
  deriving DecidableEq, Repr

/-! ## Calls of a session -/

section
variable (kind : ProfileKind) (token : Nat → String) (n : Nat) (outcome : CallOutcome)
  (profile : BrowserProfile)

/-- `mkdirSync(lock)`; only Best Invest sets the mode of the directory once more. -/
def makeLock : BrowserProfile × SessionPhase :=
  match outcome, profile.lock with
  | .returns, none => ({ profile with lock := some ⟨n, none⟩ },
      match kind with
      | .clal => .secured
      | .bestInvest => .made)
  | .returns, some _ => (profile, .busy)
  | _, _ => (profile, .failed)

/-- `chmodSync(lock)` -/
def secureLock : BrowserProfile × SessionPhase :=
  match outcome with
  | .returns => (profile, .secured)
  | _ => (profile, .failed)

/-- `writeFileSync(ownerFile)` with the flag `wx` -/
def writeOwner : BrowserProfile × SessionPhase :=
  match outcome, profile.lock with
  | .returns, some ⟨maker, none⟩ => ({ profile with lock := some ⟨maker, some (some (token n))⟩ },
      match kind with
      | .clal => .owning
      | .bestInvest => .written)
  | .breaks, some ⟨maker, none⟩ => ({ profile with lock := some ⟨maker, some none⟩ }, .unwritten)
  | _, _ => (profile, .unwritten)

/-- `chmodSync(ownerFile)` -/
def secureOwner : BrowserProfile × SessionPhase :=
  match outcome, profile.lock with
  | .returns, some ⟨_, some _⟩ => (profile, .owning)
  | _, _ => (profile, .unwritten)

/-- `rmdirSync(lock)`, which removes an empty directory only. -/
def removeEmptyLock : BrowserProfile × SessionPhase :=
  match outcome, profile.lock with
  | .returns, some ⟨_, none⟩ => ({ profile with lock := none }, .failed)
  | _, _ => (profile, .failed)

/-- The start of a browser; Best Invest's can run before its port is found. -/
def startBrowser : BrowserProfile × SessionPhase :=
  match outcome, kind with
  | .returns, _ => ({ profile with running := insert n profile.running }, .browsing)
  | .breaks, .bestInvest => ({ profile with running := insert n profile.running }, .closing)
  | _, _ => (profile, .closing)

/-- `close()`: Clal's browser is asked to close, and that it does not is let
pass; Best Invest waits for the process, and throws where it is still there. -/
def closeBrowser : BrowserProfile × SessionPhase :=
  match outcome, kind with
  | .returns, _ => ({ profile with running := profile.running.erase n }, .closed)
  | _, .clal => (profile, .closed)
  | _, .bestInvest => (profile, if n ∈ profile.running then .failed else .closed)

/-- `release()`: the token is read again. -/
def checkOwner : BrowserProfile × SessionPhase :=
  match outcome, profile.lock with
  | .returns, some ⟨_, some (some found)⟩ =>
      (profile, if found = token n then .checked else .failed)
  | _, _ => (profile, .failed)

/-- `rmSync(lock)`: first what is in the directory. -/
def removeOwner : BrowserProfile × SessionPhase :=
  match outcome, profile.lock with
  | .returns, some ⟨maker, _⟩ => ({ profile with lock := some ⟨maker, none⟩ }, .emptied)
  | _, _ => (profile, .failed)

/-- `rmSync(lock)`: then the directory. -/
def removeLock : BrowserProfile × SessionPhase :=
  match outcome, profile.lock with
  | .returns, some ⟨_, none⟩ => ({ profile with lock := none }, .released)
  | .returns, none => (profile, .released)
  | _, _ => (profile, .failed)

/-- The next call of a session. -/
def sessionCall (phase : SessionPhase) : BrowserProfile × SessionPhase :=
  match phase with
  | .idle => makeLock kind n outcome profile
  | .made => secureLock outcome profile
  | .secured => writeOwner kind token n outcome profile
  | .written => secureOwner outcome profile
  | .unwritten => removeEmptyLock outcome profile
  | .owning => startBrowser kind n outcome profile
  | .browsing => (profile, .closing)
  | .closing => closeBrowser kind n outcome profile
  | .closed => checkOwner token n outcome profile
  | .checked => removeOwner outcome profile
  | .emptied => removeLock outcome profile
  | .released | .busy | .failed | .crashed => (profile, phase)

end

section
variable (kind : ProfileKind) (token : Nat → String)

/-- A move of a session, or of an operator who takes the lock away. -/
def advanceProfile (party : ProfileParty) (move : ProfileMove) (profile : BrowserProfile)
    (phase : SessionPhase) : BrowserProfile × SessionPhase :=
  match party, move with
  | .session n, .call outcome => sessionCall kind token n outcome profile phase
  | .session n, .exits => ({ profile with running := profile.running.erase n }, phase)
  | .session _, .crashes => (profile, .crashed)
  | .operator, .call .returns => ({ profile with lock := none }, phase)
  | .operator, _ => (profile, phase)

/-- The profile and where each session stands. -/
abbrev ProfileWorld := Interleaving.World BrowserProfile SessionPhase ProfileParty

/-- One party moves. -/
def profileStep : ProfileWorld → ProfileParty × ProfileMove → ProfileWorld :=
  Interleaving.step (advanceProfile kind token)

/-- No lock, and no session yet. -/
def freshProfile : ProfileWorld where
  store := ⟨none, ∅⟩
  task := fun _ => .idle

end

/-! ## What sessions and operators keep to -/

/-- The session has made the lock and has not given it up. -/
def SessionPhase.inSession : SessionPhase → Bool
  | .made | .secured | .written | .unwritten | .owning | .browsing | .closing | .closed | .checked
  | .emptied => true
  | _ => false

/-- What the operations guide asks of an operator: no session and no browser is
left.  Clal's browsers are trusted to end when they are asked to. -/
def CarefulStep (kind : ProfileKind) (w : ProfileWorld) (m : ProfileParty × ProfileMove)
    (_ : ProfileWorld) : Prop :=
  match m.1 with
  | .operator => w.store.running = ∅ ∧ ∀ n, (w.task (.session n)).inSession = false
  | .session n => kind = .clal → w.task (.session n) = .closing →
      ∀ outcome, m.2 = .call outcome → outcome ≠ .returns → n ∉ w.store.running

/-- What the profile is like for a session in a phase. -/
def PhaseOwns (token : Nat → String) (n : Nat) (profile : BrowserProfile) : SessionPhase → Prop
  | .idle | .released | .busy => (∀ owner, profile.lock ≠ some ⟨n, owner⟩) ∧ n ∉ profile.running
  | .made | .secured | .emptied => profile.lock = some ⟨n, none⟩ ∧ n ∉ profile.running
  | .unwritten => (∃ owner, profile.lock = some ⟨n, owner⟩) ∧ n ∉ profile.running
  | .written | .owning | .closed | .checked =>
      profile.lock = some ⟨n, some (some (token n))⟩ ∧ n ∉ profile.running
  | .browsing | .closing => profile.lock = some ⟨n, some (some (token n))⟩
  | .failed | .crashed => n ∈ profile.running → ∃ owner, profile.lock = some ⟨n, owner⟩

/-- Locks and browsers of the other sessions are as they were. -/
structure LeavesOthers (n : Nat) (profile profile' : BrowserProfile) : Prop where
  lock : ∀ k, k ≠ n → ∀ owner, profile'.lock = some ⟨k, owner⟩ ↔ profile.lock = some ⟨k, owner⟩
  running : ∀ k, k ≠ n → (k ∈ profile'.running ↔ k ∈ profile.running)

section
variable {kind : ProfileKind} {token : Nat → String} {n : Nat} {outcome : CallOutcome}
  {profile profile' : BrowserProfile} {phase : SessionPhase}

/-- Nothing has changed for the others. -/
theorem LeavesOthers.refl : LeavesOthers n profile profile :=
  ⟨fun _ _ _ => .rfl, fun _ _ => .rfl⟩

/-- A session changes a lock of its own, or makes one where there is none. -/
theorem leavesOthers_lock {lock : Option LockDirectory}
    (hbefore : ∀ d ∈ profile.lock, d.maker = n) (hafter : ∀ d ∈ lock, d.maker = n) :
    LeavesOthers n profile { profile with lock } := by
  refine ⟨fun k hk owner => ?_, fun _ _ => .rfl⟩
  constructor
  · intro hlock
    exact absurd (hafter _ hlock) hk
  · intro hlock
    exact absurd (hbefore _ hlock) hk

/-- A browser of one's own starts. -/
theorem leavesOthers_insert :
    LeavesOthers n profile { profile with running := insert n profile.running } := by
  refine ⟨fun _ _ _ => .rfl, fun k hk => ?_⟩
  rw [Finset.mem_insert]
  exact or_iff_right hk

/-- A browser of one's own ends. -/
theorem leavesOthers_erase :
    LeavesOthers n profile { profile with running := profile.running.erase n } := by
  refine ⟨fun _ _ _ => .rfl, fun k hk => ?_⟩
  rw [Finset.mem_erase]
  exact and_iff_right hk

/-- **Frame**: what a session owns is left alone by the others. -/
theorem PhaseOwns.of_leavesOthers {k : Nat} (h : PhaseOwns token k profile phase) (hk : k ≠ n)
    (hleaves : LeavesOthers n profile profile') : PhaseOwns token k profile' phase := by
  have hlock := hleaves.lock k hk
  have hrunning := hleaves.running k hk
  cases phase with
  | idle | released | busy =>
      exact ⟨fun owner hmade => h.1 owner ((hlock owner).mp hmade), fun hruns => h.2 (hrunning.mp hruns)⟩
  | made | secured | emptied | written | owning | closed | checked =>
      exact ⟨(hlock _).mpr h.1, fun hruns => h.2 (hrunning.mp hruns)⟩
  | unwritten =>
      obtain ⟨owner, howner⟩ := h.1
      exact ⟨⟨owner, (hlock owner).mpr howner⟩, fun hruns => h.2 (hrunning.mp hruns)⟩
  | browsing | closing => exact (hlock _).mpr h
  | failed | crashed =>
      intro hruns
      obtain ⟨owner, howner⟩ := h (hrunning.mp hruns)
      exact ⟨owner, (hlock owner).mpr howner⟩

/-- What one call of a session does to the profile and to its own phase. -/
structure CallKeeps (token : Nat → String) (n : Nat) (profile : BrowserProfile)
    (result : BrowserProfile × SessionPhase) : Prop where
  others : LeavesOthers n profile result.1
  own : PhaseOwns token n result.1 result.2

/-- A session that fails has changed nothing. -/
theorem callKeeps_failed (h : n ∈ profile.running → ∃ owner, profile.lock = some ⟨n, owner⟩) :
    CallKeeps token n profile (profile, .failed) := ⟨.refl, h⟩

/-- The directory is made by one session only. -/
theorem makeLock_keeps (h : PhaseOwns token n profile .idle) :
    CallKeeps token n profile (makeLock kind n outcome profile) := by
  obtain ⟨hlock, hrunning⟩ := h
  unfold makeLock
  cases outcome with
  | breaks | throws => exact callKeeps_failed fun hruns => absurd hruns hrunning
  | returns =>
      cases hfound : profile.lock with
      | some d => exact ⟨.refl, hlock, hrunning⟩
      | none =>
          refine ⟨leavesOthers_lock ?_ ?_, ?_⟩
          · rw [hfound]
            exact nofun
          · intro d hd
            rw [← Option.some.inj hd]
          · cases kind with
            | clal => exact ⟨rfl, hrunning⟩
            | bestInvest => exact ⟨rfl, hrunning⟩

/-- It is then its own. -/
theorem secureLock_keeps (h : PhaseOwns token n profile .made) :
    CallKeeps token n profile (secureLock outcome profile) := by
  cases outcome with
  | returns => exact ⟨.refl, h⟩
  | breaks | throws => exact callKeeps_failed fun hruns => absurd hruns h.2

/-- The owner is written into it. -/
theorem writeOwner_keeps (h : PhaseOwns token n profile .secured) :
    CallKeeps token n profile (writeOwner kind token n outcome profile) := by
  obtain ⟨hlock, hrunning⟩ := h
  have hown : ∀ owner, LeavesOthers n profile { profile with lock := some ⟨n, owner⟩ } := by
    intro owner
    refine leavesOthers_lock ?_ ?_
    · intro d hd
      rw [hlock] at hd
      rw [← Option.some.inj hd]
    · intro d hd
      rw [← Option.some.inj hd]
  unfold writeOwner
  rw [hlock]
  cases outcome with
  | returns =>
      refine ⟨hown _, ?_⟩
      cases kind with
      | clal => exact ⟨rfl, hrunning⟩
      | bestInvest => exact ⟨rfl, hrunning⟩
  | breaks => exact ⟨hown _, ⟨_, rfl⟩, hrunning⟩
  | throws => exact ⟨.refl, ⟨_, hlock⟩, hrunning⟩

/-- And that file is its own, too. -/
theorem secureOwner_keeps (h : PhaseOwns token n profile .written) :
    CallKeeps token n profile (secureOwner outcome profile) := by
  unfold secureOwner
  rw [h.1]
  cases outcome with
  | returns => exact ⟨.refl, h⟩
  | breaks | throws => exact ⟨.refl, ⟨_, h.1⟩, h.2⟩

/-- A lock without an owner is taken back. -/
theorem removeEmptyLock_keeps (h : PhaseOwns token n profile .unwritten) :
    CallKeeps token n profile (removeEmptyLock outcome profile) := by
  obtain ⟨⟨owner, hlock⟩, hrunning⟩ := h
  have hfailed : CallKeeps token n profile (profile, .failed) :=
    callKeeps_failed fun _ => ⟨owner, hlock⟩
  unfold removeEmptyLock
  rw [hlock]
  cases outcome with
  | breaks | throws => exact hfailed
  | returns =>
      cases owner with
      | some content => exact hfailed
      | none =>
          refine ⟨leavesOthers_lock ?_ nofun, fun hruns => absurd hruns hrunning⟩
          intro d hd
          rw [hlock] at hd
          rw [← Option.some.inj hd]

/-- The browser starts under the lock. -/
theorem startBrowser_keeps (h : PhaseOwns token n profile .owning) :
    CallKeeps token n profile (startBrowser kind n outcome profile) := by
  cases outcome with
  | returns => exact ⟨leavesOthers_insert, h.1⟩
  | throws => exact ⟨.refl, h.1⟩
  | breaks =>
      cases kind with
      | clal => exact ⟨.refl, h.1⟩
      | bestInvest => exact ⟨leavesOthers_insert, h.1⟩

/-- It is closed under the lock. -/
theorem closeBrowser_keeps (h : PhaseOwns token n profile .closing)
    (hclosed : kind = .clal → outcome ≠ .returns → n ∉ profile.running) :
    CallKeeps token n profile (closeBrowser kind n outcome profile) := by
  have hkept : outcome ≠ .returns →
      CallKeeps token n profile (closeBrowser kind n outcome profile) := by
    intro hleft
    cases kind with
    | clal =>
        have hended := hclosed rfl hleft
        cases outcome with
        | returns => exact absurd rfl hleft
        | breaks | throws => exact ⟨.refl, h, hended⟩
    | bestInvest =>
        have hended : CallKeeps token n profile
            (profile, if n ∈ profile.running then .failed else .closed) := by
          by_cases hruns : n ∈ profile.running
          · rw [if_pos hruns]
            exact callKeeps_failed fun _ => ⟨_, h⟩
          · rw [if_neg hruns]
            exact ⟨.refl, h, hruns⟩
        cases outcome with
        | returns => exact absurd rfl hleft
        | breaks | throws => exact hended
  cases outcome with
  | returns => exact ⟨leavesOthers_erase, h, Finset.notMem_erase n _⟩
  | breaks | throws => exact hkept nofun

/-- The token is read again before the lock is given back. -/
theorem checkOwner_keeps (h : PhaseOwns token n profile .closed) :
    CallKeeps token n profile (checkOwner token n outcome profile) := by
  unfold checkOwner
  rw [h.1]
  cases outcome with
  | breaks | throws => exact callKeeps_failed fun _ => ⟨_, h.1⟩
  | returns =>
      dsimp only
      rw [if_pos rfl]
      exact ⟨.refl, h⟩

/-- First the owner goes, -/
theorem removeOwner_keeps (h : PhaseOwns token n profile .checked) :
    CallKeeps token n profile (removeOwner outcome profile) := by
  unfold removeOwner
  rw [h.1]
  cases outcome with
  | breaks | throws => exact callKeeps_failed fun _ => ⟨_, h.1⟩
  | returns =>
      refine ⟨leavesOthers_lock ?_ ?_, rfl, h.2⟩
      · intro d hd
        rw [h.1] at hd
        rw [← Option.some.inj hd]
      · intro d hd
        rw [← Option.some.inj hd]

/-- then the directory. -/
theorem removeLock_keeps (h : PhaseOwns token n profile .emptied) :
    CallKeeps token n profile (removeLock outcome profile) := by
  unfold removeLock
  rw [h.1]
  cases outcome with
  | breaks | throws => exact callKeeps_failed fun _ => ⟨_, h.1⟩
  | returns =>
      refine ⟨leavesOthers_lock ?_ nofun, nofun, h.2⟩
      intro d hd
      rw [h.1] at hd
      rw [← Option.some.inj hd]

/-- **One call** keeps what its session owns, and leaves the others alone. -/
theorem sessionCall_keeps (h : PhaseOwns token n profile phase)
    (hclosed : kind = .clal → phase = .closing → outcome ≠ .returns → n ∉ profile.running) :
    CallKeeps token n profile (sessionCall kind token n outcome profile phase) := by
  cases phase with
  | idle => exact makeLock_keeps h
  | made => exact secureLock_keeps h
  | secured => exact writeOwner_keeps h
  | written => exact secureOwner_keeps h
  | unwritten => exact removeEmptyLock_keeps h
  | owning => exact startBrowser_keeps h
  | browsing => exact ⟨.refl, h⟩
  | closing => exact closeBrowser_keeps h fun hkind => hclosed hkind rfl
  | closed => exact checkOwner_keeps h
  | checked => exact removeOwner_keeps h
  | emptied => exact removeLock_keeps h
  | released | busy | failed | crashed => exact ⟨.refl, h⟩

/-- A browser that ends is the only thing that changes. -/
theorem exits_keeps (h : PhaseOwns token n profile phase) :
    CallKeeps token n profile ({ profile with running := profile.running.erase n }, phase) := by
  refine ⟨leavesOthers_erase, ?_⟩
  have hended := Finset.notMem_erase n profile.running
  cases phase with
  | idle | released | busy => exact ⟨h.1, hended⟩
  | made | secured | emptied | written | owning | closed | checked | unwritten => exact ⟨h.1, hended⟩
  | browsing | closing => exact h
  | failed | crashed => exact fun hruns => absurd hruns hended

/-- A killed process leaves its lock behind, and maybe its browser. -/
theorem crashes_keeps (h : PhaseOwns token n profile phase) :
    CallKeeps token n profile (profile, .crashed) := by
  refine ⟨.refl, fun hruns => ?_⟩
  cases phase with
  | idle | released | busy => exact absurd hruns h.2
  | made | secured | emptied | written | owning | closed | checked | unwritten =>
      exact absurd hruns h.2
  | browsing | closing => exact ⟨_, h⟩
  | failed | crashed => exact h hruns

end


/-! ## Every interleaving -/

/-- What a party may rely on; the operator relies on nothing. -/
def PartyOwns (token : Nat → String) (party : ProfileParty) (profile : BrowserProfile)
    (phase : SessionPhase) : Prop :=
  match party with
  | .session n => PhaseOwns token n profile phase
  | .operator => True

/-- Every session owns what its phase says. -/
def ProfileInv (token : Nat → String) (w : ProfileWorld) : Prop :=
  Interleaving.Invariant (fun _ => True) (PartyOwns token) w

section
variable {kind : ProfileKind} {token : Nat → String} {w : ProfileWorld}

/-- A new profile. -/
theorem profileInv_fresh : ProfileInv token freshProfile := by
  refine ⟨trivial, fun party => ?_⟩
  cases party with
  | session n => exact ⟨nofun, Finset.notMem_empty n⟩
  | operator => trivial

/-- A move of a session. -/
theorem session_keeps {n : Nat} {move : ProfileMove} (hinv : ProfileInv token w)
    (hcareful : CarefulStep kind w (.session n, move) (profileStep kind token w (.session n, move))) :
    CallKeeps token n w.store (advanceProfile kind token (.session n) move w.store
      (w.task (.session n))) := by
  have hown : PhaseOwns token n w.store (w.task (.session n)) := hinv.2 (.session n)
  cases move with
  | exits => exact exits_keeps hown
  | crashes => exact crashes_keeps hown
  | call outcome =>
      exact sessionCall_keeps hown fun hkind hphase hleft => hcareful hkind hphase outcome rfl hleft

/-- An operator takes away no lock that a session owns. -/
theorem operator_keeps {profile : BrowserProfile} {phase : SessionPhase} {n : Nat}
    (hended : phase.inSession = false) (hrunning : profile.running = ∅)
    (h : PhaseOwns token n profile phase) :
    PhaseOwns token n { profile with lock := none } phase := by
  have hnone : n ∉ profile.running := by
    rw [hrunning]
    exact Finset.notMem_empty n
  cases phase with
  | idle | released | busy => exact ⟨nofun, hnone⟩
  | failed | crashed => exact fun hruns => absurd hruns hnone
  | made | secured | written | unwritten | owning | browsing | closing | closed | checked
    | emptied => cases hended

/-- **One move** of anyone keeps what the sessions own. -/
theorem profileInv_step {m : ProfileParty × ProfileMove} (hinv : ProfileInv token w)
    (hcareful : CarefulStep kind w m (profileStep kind token w m)) :
    ProfileInv token (profileStep kind token w m) := by
  obtain ⟨party, move⟩ := m
  cases party with
  | session n =>
      have hkeeps := session_keeps hinv hcareful
      refine Interleaving.invariant_step hinv trivial hkeeps.own fun k hk hother => ?_
      cases k with
      | session k =>
          have hne : k ≠ n := fun hsame => hk (congrArg ProfileParty.session hsame)
          exact PhaseOwns.of_leavesOthers hother hne hkeeps.others
      | operator => trivial
  | operator =>
      refine Interleaving.invariant_step hinv trivial trivial fun k _ hother => ?_
      cases k with
      | operator => trivial
      | session k =>
          have hsame : PhaseOwns token k w.store (w.task (.session k)) := hother
          have hcleared := operator_keeps (hcareful.2 k) hcareful.1 hsame
          cases move with
          | exits | crashes => exact hsame
          | call outcome =>
              cases outcome with
              | returns => exact hcleared
              | breaks | throws => exact hsame

/-! ## One session, one browser -/

/-- What a profile is like at any time. -/
structure ExclusiveProfile (w : ProfileWorld) : Prop where
  /-- One session owns the lock. -/
  sessions : ∀ n n', (w.task (.session n)).inSession = true →
    (w.task (.session n')).inSession = true → n = n'
  /-- One browser runs, and its lock is there. -/
  browsers : ∀ n ∈ w.store.running, ∃ owner, w.store.lock = some ⟨n, owner⟩
  /-- A session that released its lock has no browser, and no other's session is disturbed. -/
  released : ∀ n, w.task (.session n) = .released → n ∉ w.store.running
  /-- A lock is of a session, or of one that failed or was killed. -/
  lock : ∀ maker owner, w.store.lock = some ⟨maker, owner⟩ →
    (w.task (.session maker)).inSession = true ∨ w.task (.session maker) = .failed ∨
      w.task (.session maker) = .crashed

/-- A session that is under way has the lock. -/
theorem PhaseOwns.lock {n : Nat} {profile : BrowserProfile} {phase : SessionPhase}
    (h : PhaseOwns token n profile phase) (hphase : phase.inSession = true) :
    ∃ owner, profile.lock = some ⟨n, owner⟩ := by
  cases phase with
  | idle | released | busy | failed | crashed => cases hphase
  | made | secured | emptied | written | owning | closed | checked => exact ⟨_, h.1⟩
  | unwritten => exact h.1
  | browsing | closing => exact ⟨_, h⟩

/-- A browser runs under its own session's lock. -/
theorem PhaseOwns.browser {n : Nat} {profile : BrowserProfile} {phase : SessionPhase}
    (h : PhaseOwns token n profile phase) (hruns : n ∈ profile.running) :
    ∃ owner, profile.lock = some ⟨n, owner⟩ := by
  cases phase with
  | idle | released | busy => exact absurd hruns h.2
  | made | secured | emptied | written | owning | closed | checked | unwritten =>
      exact absurd hruns h.2
  | browsing | closing => exact ⟨_, h⟩
  | failed | crashed => exact h hruns

/-- A lock has one maker. -/
theorem maker_unique {profile : BrowserProfile} {n n' : Nat}
    (h : ∃ owner, profile.lock = some ⟨n, owner⟩)
    (h' : ∃ owner, profile.lock = some ⟨n', owner⟩) : n = n' := by
  obtain ⟨owner, hlock⟩ := h
  obtain ⟨owner', hlock'⟩ := h'
  exact congrArg LockDirectory.maker (Option.some.inj (hlock.symm.trans hlock'))

/-- The invariant excludes two sessions. -/
theorem ProfileInv.exclusive (hinv : ProfileInv token w) : ExclusiveProfile w := by
  have hown : ∀ n, PhaseOwns token n w.store (w.task (.session n)) := fun n => hinv.2 (.session n)
  constructor
  · intro n n' hn hn'
    exact maker_unique ((hown n).lock hn) ((hown n').lock hn')
  · intro n hruns
    exact (hown n).browser hruns
  · intro n hphase
    have hreleased := hown n
    rw [hphase] at hreleased
    exact hreleased.2
  · intro maker owner hlock
    have hmaker := hown maker
    cases hphase : w.task (.session maker) with
    | idle | released | busy =>
        rw [hphase] at hmaker
        exact absurd hlock (hmaker.1 owner)
    | failed => exact .inr (.inl rfl)
    | crashed => exact .inr (.inr rfl)
    | made | secured | written | unwritten | owning | browsing | closing | closed | checked
      | emptied => exact .inl rfl

/-- A lock is changed by the session that made it, or by an operator. -/
def ChangesOwnLock (w : ProfileWorld) (m : ProfileParty × ProfileMove) (w' : ProfileWorld) : Prop :=
  ∀ maker owner, w.store.lock = some ⟨maker, owner⟩ → w'.store.lock ≠ some ⟨maker, owner⟩ →
    m.1 = .session maker ∨ m.1 = .operator

/-- A step changes a lock only for its maker, or for the operator. -/
theorem changesOwnLock_step {m : ProfileParty × ProfileMove} (hinv : ProfileInv token w)
    (hcareful : CarefulStep kind w m (profileStep kind token w m)) :
    ChangesOwnLock w m (profileStep kind token w m) := by
  intro maker owner hlock hchanged
  obtain ⟨party, move⟩ := m
  cases party with
  | operator => exact .inr rfl
  | session n =>
      by_cases hmaker : maker = n
      · exact .inl (congrArg ProfileParty.session hmaker.symm)
      · have hleaves := (session_keeps hinv hcareful).others
        exact absurd ((hleaves.lock maker hmaker owner).mpr hlock) hchanged

/-- **One session and one browser at a time**, in every interleaving of any
number of sessions with failing calls, killed processes and operators who clear
stale locks as they are told to; and no session touches the lock of another. -/
theorem profile_exclusive (kind : ProfileKind) (token : Nat → String)
    (moves : List (ProfileParty × ProfileMove))
    (h : Along (profileStep kind token) (CarefulStep kind) freshProfile moves) :
    Along (profileStep kind token)
      (fun w m w' => ExclusiveProfile w' ∧ ChangesOwnLock w m w') freshProfile moves := by
  refine h.of_invariant (@profileInv_fresh token) fun w m hinv hcareful => ?_
  have hnext := profileInv_step hinv hcareful
  exact ⟨hnext, hnext.exclusive, changesOwnLock_step hinv hcareful⟩

end

/-! ## Nothing is left behind -/

/-- No call on the lock fails and no process is killed; what the browser does,
and the work with it, can end in any way. -/
def SmoothStep (w : ProfileWorld) (m : ProfileParty × ProfileMove) (_ : ProfileWorld) : Prop :=
  match m with
  | (.session n, .call outcome) => outcome = .returns ∨ w.task (.session n) = .owning ∨
      w.task (.session n) = .browsing
  | (.session _, .crashes) => False
  | (.session _, .exits) => True
  | (.operator, _) => True

/-- The session goes on, has ended, or was refused. -/
def SessionPhase.isSound : SessionPhase → Bool
  | .unwritten | .failed | .crashed => false
  | _ => true

section
variable {kind : ProfileKind} {token : Nat → String} {w : ProfileWorld}

/-- A call that returns leads to a phase that can go on. -/
theorem sessionCall_sound {n : Nat} {outcome : CallOutcome} {profile : BrowserProfile}
    {phase : SessionPhase} (h : PhaseOwns token n profile phase) (hsound : phase.isSound = true)
    (hsmooth : outcome = .returns ∨ phase = .owning ∨ phase = .browsing) :
    (sessionCall kind token n outcome profile phase).2.isSound = true := by
  have hreturns : phase ≠ .owning → phase ≠ .browsing → outcome = .returns := by
    intro howning hbrowsing
    rcases hsmooth with hreturns | hphase | hphase
    · exact hreturns
    · exact absurd hphase howning
    · exact absurd hphase hbrowsing
  cases phase with
  | unwritten | failed | crashed => cases hsound
  | released | busy => exact hsound
  | browsing => rfl
  | owning =>
      cases outcome with
      | returns => rfl
      | breaks | throws => cases kind <;> rfl
  | idle =>
      obtain rfl := hreturns nofun nofun
      change (makeLock kind n .returns profile).2.isSound = true
      unfold makeLock
      cases profile.lock with
      | none => cases kind <;> rfl
      | some d => rfl
  | made =>
      obtain rfl := hreturns nofun nofun
      rfl
  | secured =>
      obtain rfl := hreturns nofun nofun
      change (writeOwner kind token n .returns profile).2.isSound = true
      unfold writeOwner
      rw [h.1]
      cases kind <;> rfl
  | written =>
      obtain rfl := hreturns nofun nofun
      change (secureOwner .returns profile).2.isSound = true
      unfold secureOwner
      rw [h.1]
      rfl
  | closing =>
      obtain rfl := hreturns nofun nofun
      rfl
  | closed =>
      obtain rfl := hreturns nofun nofun
      change (checkOwner token n .returns profile).2.isSound = true
      unfold checkOwner
      rw [h.1]
      dsimp only
      rw [if_pos rfl]
      rfl
  | checked =>
      obtain rfl := hreturns nofun nofun
      change (removeOwner .returns profile).2.isSound = true
      unfold removeOwner
      rw [h.1]
      rfl
  | emptied =>
      obtain rfl := hreturns nofun nofun
      change (removeLock .returns profile).2.isSound = true
      unfold removeLock
      rw [h.1]
      rfl

/-- Every session owns what its phase says, and none has failed. -/
structure SoundInv (token : Nat → String) (w : ProfileWorld) : Prop where
  owns : ProfileInv token w
  sound : ∀ n, (w.task (.session n)).isSound = true

/-- A step that returns keeps the lock accounted for. -/
theorem soundInv_step {m : ProfileParty × ProfileMove} (hinv : SoundInv token w)
    (hcareful : CarefulStep kind w m (profileStep kind token w m))
    (hsmooth : SmoothStep w m (profileStep kind token w m)) :
    SoundInv token (profileStep kind token w m) := by
  refine ⟨profileInv_step hinv.owns hcareful, fun k => ?_⟩
  by_cases hother : ProfileParty.session k = m.1
  swap
  · unfold profileStep
    rw [Interleaving.step_task_other w hother]
    exact hinv.sound k
  obtain ⟨party, move⟩ := m
  obtain rfl : ProfileParty.session k = party := hother
  unfold profileStep
  rw [Interleaving.step_task_self]
  cases move with
  | exits => exact hinv.sound k
  | crashes => cases hsmooth
  | call outcome => exact sessionCall_sound (hinv.owns.2 (.session k)) (hinv.sound k) hsmooth

/-- Where nothing fails a lock is there while a session is under way. -/
theorem SoundInv.lock (hinv : SoundInv token w) :
    w.store.lock.isSome = true ↔ ∃ n, (w.task (.session n)).inSession = true := by
  constructor
  · intro hlock
    obtain ⟨⟨maker, owner⟩, hlock⟩ := Option.isSome_iff_exists.mp hlock
    refine ⟨maker, ?_⟩
    have hsound := hinv.sound maker
    rcases hinv.owns.exclusive.lock maker owner hlock with hphase | hphase | hphase
    · exact hphase
    · rw [hphase] at hsound
      cases hsound
    · rw [hphase] at hsound
      cases hsound
  · rintro ⟨n, hphase⟩
    obtain ⟨owner, hlock⟩ := (hinv.owns.2 (.session n)).lock hphase
    rw [hlock]
    rfl

/-- A session that is refused has met another one. -/
def RefusedByAnother (w : ProfileWorld) (w' : ProfileWorld) : Prop :=
  ∀ n, w.task (.session n) = .idle → w'.task (.session n) = .busy →
    ∃ k, (w.task (.session k)).inSession = true

/-- A session is refused only where another one has the lock. -/
theorem SoundInv.refused {m : ProfileParty × ProfileMove} (hinv : SoundInv token w) :
    RefusedByAnother w (profileStep kind token w m) := by
  intro n hidle hbusy
  refine hinv.lock.mp ?_
  by_cases hother : ProfileParty.session n = m.1
  swap
  · unfold profileStep at hbusy
    rw [Interleaving.step_task_other w hother, hidle] at hbusy
    cases hbusy
  obtain ⟨party, move⟩ := m
  obtain rfl : ProfileParty.session n = party := hother
  unfold profileStep at hbusy
  rw [Interleaving.step_task_self, hidle] at hbusy
  cases move with
  | exits | crashes => cases hbusy
  | call outcome =>
      change (makeLock kind n outcome w.store).2 = .busy at hbusy
      unfold makeLock at hbusy
      cases outcome with
      | breaks | throws => cases hbusy
      | returns =>
          cases hlock : w.store.lock with
          | some d => rfl
          | none =>
              rw [hlock] at hbusy
              cases kind <;> cases hbusy

/-- **The lock is given back**: where no call on it fails and no process is
killed, it is there exactly while a session is under way, and a session is
refused only while another one is. -/
theorem profile_lock_returned (kind : ProfileKind) (token : Nat → String)
    (moves : List (ProfileParty × ProfileMove))
    (h : Along (profileStep kind token)
      (fun w m w' => CarefulStep kind w m w' ∧ SmoothStep w m w') freshProfile moves) :
    Along (profileStep kind token)
      (fun w _ w' => (w'.store.lock.isSome = true ↔
        ∃ n, (w'.task (.session n)).inSession = true) ∧ RefusedByAnother w w')
      freshProfile moves := by
  have hfresh : SoundInv token freshProfile := ⟨profileInv_fresh, fun _ => rfl⟩
  refine h.of_invariant hfresh fun w m hinv hstep => ?_
  have hnext := soundInv_step hinv hstep.1 hstep.2
  exact ⟨hnext, hnext.lock, hinv.refused⟩

end

/-! ## A killed process and its operator -/

section
variable {kind : ProfileKind} {token : Nat → String}

/-- A call that returns is careful. -/
theorem careful_of_returns {n : Nat} {move : ProfileMove} {w w' : ProfileWorld}
    (h : ∀ outcome, move = .call outcome → outcome = .returns) :
    CarefulStep kind w (.session n, move) w' :=
  fun _ _ outcome hmove hleft => absurd (h outcome hmove) hleft

/-- A party that does not move stays where it is. -/
theorem task_of_unmoved {party : ProfileParty} {w : ProfileWorld}
    {moves : List (ProfileParty × ProfileMove)} (h : ∀ m ∈ moves, party ≠ m.1) :
    (Runs.run (profileStep kind token) w moves).task party = w.task party := by
  induction moves generalizing w with
  | nil => rfl
  | cons m moves ih =>
      rw [Runs.run_cons, ih fun m' hm' => h m' (List.mem_cons_of_mem _ hm')]
      exact Interleaving.step_task_other w (h m List.mem_cons_self)

end

/-- Three sessions: the second is refused, the third is killed. -/
def killedMoves : List (ProfileParty × ProfileMove) :=
  [(.session 0, .call .returns), (.session 0, .call .returns), (.session 0, .call .returns),
    (.session 1, .call .returns), (.session 0, .call .returns), (.session 0, .call .returns),
    (.session 0, .call .returns), (.session 0, .call .returns), (.session 0, .call .returns),
    (.session 2, .call .returns), (.session 2, .call .returns), (.session 2, .call .returns),
    (.session 2, .crashes), (.session 2, .exits)]

/-- The operator then clears the lock, and a fourth session begins. -/
def clearedMoves : List (ProfileParty × ProfileMove) :=
  killedMoves ++ [(.operator, .call .returns), (.session 3, .call .returns)]

/-- The example is careful, -/
theorem careful_cleared : Along (profileStep .clal fun _ => "token") (CarefulStep .clal)
    freshProfile clearedMoves := by
  have hcalls : ∀ m ∈ killedMoves, (∃ n, m.1 = .session n) ∧
      ∀ outcome, m.2 = .call outcome → outcome = .returns := by
    intro m hm
    simp only [killedMoves, List.mem_cons, List.not_mem_nil, or_false] at hm
    rcases hm with rfl | rfl | rfl | rfl | rfl | rfl | rfl | rfl | rfl | rfl | rfl | rfl | rfl | rfl
    all_goals exact ⟨⟨_, rfl⟩, fun outcome hmove => by cases hmove <;> rfl⟩
  refine Runs.along_append.mpr ⟨?_, ⟨rfl, fun n => ?_⟩, careful_of_returns ?_, trivial⟩
  · refine @Runs.along_of_inputs _ _ _ _ _ (fun _ => True) _ _ hcalls trivial
      fun w m _ hm => ⟨trivial, ?_⟩
    obtain ⟨⟨n, hparty⟩, hmove⟩ := hm
    obtain ⟨party, move⟩ := m
    obtain rfl : party = .session n := hparty
    exact careful_of_returns hmove
  · by_cases hmoved : n < 3
    · interval_cases n
      all_goals rfl
    · rw [task_of_unmoved]
      · rfl
      · intro m hm hsame
        simp only [killedMoves, List.mem_cons, List.not_mem_nil, or_false] at hm
        rcases hm with rfl | rfl | rfl | rfl | rfl | rfl | rfl | rfl | rfl | rfl | rfl | rfl | rfl | rfl
        all_goals
          have hn := ProfileParty.session.inj hsame
          omega
  · intro outcome hmove
    exact (ProfileMove.call.inj hmove).symm

/-- and so no two of its sessions share the profile. -/
theorem profile_exclusive_cleared : Along (profileStep .clal fun _ => "token")
    (fun w m w' => ExclusiveProfile w' ∧ ChangesOwnLock w m w') freshProfile clearedMoves :=
  profile_exclusive .clal (fun _ => "token") clearedMoves careful_cleared

/-- A browser that does not start; another session is refused meanwhile, and one
begins afterwards. -/
def failedStartMoves : List (ProfileParty × ProfileMove) :=
  [(.session 0, .call .returns), (.session 0, .call .returns), (.session 1, .call .returns),
    (.session 0, .call .throws), (.session 0, .call .returns), (.session 0, .call .returns),
    (.session 0, .call .returns), (.session 0, .call .returns), (.session 2, .call .returns)]

/-- A browser that does not start leaves no lock. -/
theorem profile_lock_returned_failedStart : Along (profileStep .clal fun _ => "token")
    (fun w _ w' => (w'.store.lock.isSome = true ↔
      ∃ n, (w'.task (.session n)).inSession = true) ∧ RefusedByAnother w w')
    freshProfile failedStartMoves := by
  refine profile_lock_returned .clal (fun _ => "token") failedStartMoves ?_
  have hreturned : ∀ {n : Nat} {w w' : ProfileWorld},
      CarefulStep .clal w (.session n, .call .returns) w' ∧
        SmoothStep w (.session n, .call .returns) w' := fun {n w w'} =>
    ⟨careful_of_returns fun outcome hmove => (ProfileMove.call.inj hmove).symm, .inl rfl⟩
  refine ⟨hreturned, hreturned, hreturned, ⟨fun _ hphase => ?_, .inr (.inl rfl)⟩, hreturned,
    hreturned, hreturned, hreturned, hreturned, trivial⟩
  cases hphase

end SimplefinBridge
