import Mathlib.Data.List.Basic
import Mathlib.Logic.Relation
import SimplefinBridge.InvestmentRuntime

/-!
# Changes of the runtime

`WorkStep` lists the atomic changes that the functions of the runtime make to
its flags, promises and tasks, each with what its code has checked at that
point.  Collections exclude one another and renewals because every one of these
changes keeps `RuntimeWork.Inv`; what they add up to over time is `Evolves`.
-/

namespace SimplefinBridge

/-- An entry of a list in which one entry was changed. -/
theorem getElem?_modify_some {α : Type} {l : List α} {f : α → α} {n i : Nat} {a : α}
    (h : (l.modify n f)[i]? = some a) : ∃ b, l[i]? = some b ∧ a = if n = i then f b else b := by
  rw [List.getElem?_modify, Option.map_eq_map, Option.map_eq_some_iff] at h
  obtain ⟨b, hb, ha⟩ := h
  exact ⟨b, hb, ha.symm⟩

/-- One place of a list is changed. -/
theorem getElem?_modify_of_some {α : Type} {l : List α} (f : α → α) (n : Nat) {i : Nat} {b : α}
    (h : l[i]? = some b) : (l.modify n f)[i]? = some (if n = i then f b else b) := by
  rw [List.getElem?_modify, h]
  rfl

/-- An entry of a list with one more entry. -/
theorem getElem?_concat_some {α : Type} {l : List α} {a b : α} {i : Nat}
    (h : (l ++ [a])[i]? = some b) : l[i]? = some b ∨ (i = l.length ∧ b = a) := by
  rw [List.getElem?_append] at h
  split_ifs at h with hi
  · exact .inl h
  · have hzero : i - l.length = 0 := by
      by_contra hne
      rw [List.getElem?_eq_none (by simp only [List.length_singleton]; omega)] at h
      cases h
    rw [hzero] at h
    exact .inr ⟨by omega, (Option.some.inj h).symm⟩

namespace CollectionPhase

variable {ι : Type}

/-- `runNow` has not returned. -/
def isLive : CollectionPhase ι → Bool
  | returned _ => false
  | _ => true

/-- The promise is not settled. -/
def isOpen : CollectionPhase ι → Bool
  | reserved _ | collecting _ => true
  | _ => false

/-- `collect` is in progress. -/
def isCollecting : CollectionPhase ι → Bool
  | collecting _ => true
  | _ => false

/-- A collection that is open is live. -/
theorem live_of_open {phase : CollectionPhase ι} (h : phase.isOpen = true) : phase.isLive = true := by
  cases phase <;> first | rfl | cases h

/-- A collection that collects is open. -/
theorem open_of_collecting {phase : CollectionPhase ι} (h : phase.isCollecting = true) :
    phase.isOpen = true := by
  cases phase <;> first | rfl | cases h

end CollectionPhase

/-! ## The changes -/

section
variable {ι : Type}

/-- An occurrence is added and becomes the scheduled collection. -/
def RuntimeWork.occurs (deadline : Instant) (w : RuntimeWork ι) : RuntimeWork ι :=
  { w with
    occurrences := w.occurrences ++ [⟨w.generation, deadline, .due, []⟩]
    scheduledCollection := some w.occurrences.length }

/-- What the runtime may do next to its work. -/
inductive WorkStep (options : RuntimeOptions ι) (w : RuntimeWork ι) : RuntimeWork ι → Prop
  | reserves (caller : Caller) (hclosed : w.closed = false) (hidle : w.running = none)
      (hcaller : ∀ k, caller ≠ .scheduled k) : WorkStep options w (w.reserve caller)
  | attemptReserves (k : Nat) (now : Instant) (o : Occurrence) (hclosed : w.closed = false)
      (hidle : w.running = none) (ho : w.occurrences[k]? = some o) (hdue : o.phase = .due)
      (htime : now ≤ o.deadline) :
      WorkStep options w ((w.reserve (.scheduled k)).attempts k now (some w.collections.length))
  | attemptRefused (k : Nat) (now : Instant) (o : Occurrence) (ho : w.occurrences[k]? = some o)
      (hdue : o.phase = .due) (htime : now ≤ o.deadline) : WorkStep options w (w.attempts k now none)
  | begins (n : Nat) (c : Collection ι) (maintaining : Option Nat)
      (collect : Bool → Collector ι CollectionStatus) (hc : w.collections[n]? = some c)
      (hphase : c.phase = .reserved maintaining) (hdone : w.renewalDone maintaining = true)
      (hclosed : w.closed = false) (haborted : c.aborted = false)
      (hgeneration : w.generation = c.startedGeneration) (hcollect : options.collect = some collect) :
      WorkStep options w (w.begins n (collect c.caller.isManual))
  | refuses (n : Nat) (maintaining : Option Nat) (hphase : w.phase? n = some (.reserved maintaining)) :
      WorkStep options w (w.setPhase n (.settled (.ok none)))
  | performs (n : Nat) (effect : CollectorEffect) (answer : effect.Answer)
      (next : effect.Answer → Collector ι CollectionStatus)
      (hphase : w.phase? n = some (.collecting (.perform effect next))) :
      WorkStep options w (w.performed n effect answer (next answer))
  | resumes (n : Nat) (answer : ι) (next : ι → Collector ι CollectionStatus)
      (hphase : w.phase? n = some (.collecting (.await next))) :
      WorkStep options w (w.setPhase n (.collecting (next answer)))
  | settles (n : Nat) (status : CollectionStatus)
      (hphase : w.phase? n = some (.collecting (.ret status))) :
      WorkStep options w (w.setPhase n (.settled (.ok (some status))))
  | fails (n : Nat) (error : CollectionError) (result : Settlement)
      (hphase : w.phase? n = some (.collecting (.fail error)))
      (hresult : ∀ status, result = .ok status → status = some .error) :
      WorkStep options w (w.setPhase n (.settled result))
  | writes (op : InvestmentOp) (hopen : w.closing = none) : WorkStep options w (w.wrote op)
  | returns (n : Nat) (result : Settlement) (hphase : w.phase? n = some (.settled result)) :
      WorkStep options w (w.returns n result)
  | renews (now : Instant) (hidle : w.running = none) (hnone : w.maintaining = none)
      (hclosed : w.closed = false) : WorkStep options w (w.startRenewal now)
  | renewed (m : Nat) (result : Option ClalSessionState) (hphase : w.isRenewing m = true) :
      WorkStep options w (w.onRenewal m fun r => { r with phase := .settled result })
  | renewalReturns (m : Nat) (r : Renewal) (hr : w.renewals[m]? = some r)
      (hphase : r.phase ≠ .renewing ∧ r.phase ≠ .returned) : WorkStep options w (w.renewalReturns m)
  | aborts : WorkStep options w w.abortCollection
  | stops : WorkStep options w w.stopped
  | shuts (hclosing : w.closing = none) :
      WorkStep options w (RuntimeWork.stopped { w with closed := true })
  | closes (hclosed : w.closed = true) (hclosing : w.closing = none) :
      WorkStep options w { w with closing := some (.waiting w.running w.maintaining) }
  | closeResolves (running maintaining : Option Nat) (result : Option CollectionStatus)
      (hclosing : w.closing = some (.waiting running maintaining))
      (hrunning : w.runningResult running = some (.ok result))
      (hdone : w.renewalDone maintaining = true) :
      WorkStep options w { w with closing := some .resolved }
  | closeRejects (running maintaining : Option Nat)
      (hclosing : w.closing = some (.waiting running maintaining)) :
      WorkStep options w { w with closing := some .rejected }
  | occurs (deadline : Instant) : WorkStep options w (w.occurs deadline)
  | over (k : Nat) (scheduled : Option Nat)
      (hphase : ∀ o collection, w.occurrences[k]? = some o → o.phase = .awaiting collection →
        (w.awaited collection).isSome) :
      WorkStep options w { w.occurrenceOver k with scheduledCollection := scheduled }
  | retries (k : Nat) (o : Occurrence) (collection : Option Nat) (status : Option CollectionStatus)
      (ho : w.occurrences[k]? = some o) (hphase : o.phase = .awaiting collection)
      (hawaited : w.awaited collection = some (.ok status))
      (hbusy : status = some .skipped ∨ status = none) :
      WorkStep options w (w.onOccurrence k fun o => { o with phase := .due })

/-- Any number of atomic changes. -/
abbrev WorkSteps (options : RuntimeOptions ι) : RuntimeWork ι → RuntimeWork ι → Prop :=
  Relation.ReflTransGen (WorkStep options)

end

/-! ## The invariant -/

namespace RuntimeWork

variable {ι : Type}

/-- What keeps collections and renewals apart. -/
structure Inv (w : RuntimeWork ι) : Prop where
  running : ∀ (n : Nat) (c : Collection ι), w.collections[n]? = some c → c.phase.isLive = true →
    w.running = some n
  controller : w.collectionController = w.running
  maintaining : ∀ (m : Nat) (r : Renewal), w.renewals[m]? = some r → r.phase ≠ .returned →
    w.maintaining = some m
  maintenance : w.maintenanceController = w.maintaining
  reserved : ∀ (n : Nat) (c : Collection ι) (maintaining : Option Nat), w.collections[n]? = some c →
    c.phase = .reserved maintaining → w.maintaining = none ∨ w.maintaining = maintaining
  collecting : ∀ (n : Nat) (c : Collection ι), w.collections[n]? = some c →
    c.phase.isCollecting = true → ∀ m, w.isRenewing m = false
  aborted : w.closed = true → ∀ (n : Nat) (c : Collection ι), w.collections[n]? = some c →
    c.phase.isLive = true → c.aborted = true
  generations : ∀ (n : Nat) (c : Collection ι), w.collections[n]? = some c →
    c.startedGeneration ≤ w.generation ∧ (w.closed = true → c.startedGeneration < w.generation)
  closing : w.closing ≠ none → w.closed = true
  waits : ∀ running maintaining, w.closing = some (.waiting running maintaining) →
    (∀ (n : Nat) (c : Collection ι), w.collections[n]? = some c → c.phase.isOpen = true →
      running = some n) ∧
    ∀ m, w.isRenewing m = true → maintaining = some m
  resolved : w.closing = some .resolved →
    (∀ (n : Nat) (c : Collection ι), w.collections[n]? = some c → c.phase.isOpen = false) ∧
    ∀ m, w.isRenewing m = false

/-- A new runtime has no work. -/
theorem inv_empty : Inv ({} : RuntimeWork ι) where
  running := by intro n c hc; cases hc
  controller := rfl
  maintaining := by intro m r hr; cases hr
  maintenance := rfl
  reserved := by intro n c m hc; cases hc
  collecting := by intro n c hc; cases hc
  aborted := by intro h; cases h
  generations := by intro n c hc; cases hc
  closing := by intro h; exact absurd rfl h
  waits := by intro r m h; cases h
  resolved := by intro h; cases h

/-- Logs and the schedule are not part of the invariant. -/
theorem Inv.of_same {w w' : RuntimeWork ι} (h : Inv w)
    (hsame : w' = { w with
      writes := w'.writes
      reservations := w'.reservations
      occurrences := w'.occurrences
      scheduledCollection := w'.scheduledCollection }) : Inv w' := by
  rw [hsame]
  exact ⟨h.running, h.controller, h.maintaining, h.maintenance, h.reserved, h.collecting, h.aborted,
    h.generations, h.closing, h.waits, h.resolved⟩

/-! ### Changes of one task -/

/-- How a collection may go on without touching the flags. -/
structure CollectionMove (w : RuntimeWork ι) (c c' : Collection ι) : Prop where
  live : c'.phase.isLive = true → c.phase.isLive = true
  stays_open : c'.phase.isOpen = true → c.phase.isOpen = true
  reserved : ∀ maintaining, c'.phase = .reserved maintaining → c.phase = .reserved maintaining
  collecting : c'.phase.isCollecting = true → ∀ m, w.isRenewing m = false
  aborted : c.aborted = true → c'.aborted = true
  startedGeneration : c'.startedGeneration = c.startedGeneration

/-- A collection may stay where it is. -/
theorem CollectionMove.refl {w : RuntimeWork ι} (h : Inv w) {n : Nat} {c : Collection ι}
    (hc : w.collections[n]? = some c) : CollectionMove w c c :=
  ⟨id, id, fun _ => id, h.collecting n c hc, id, rfl⟩

/-- The collections of `w'` are those of `w`, each gone on. -/
theorem Inv.of_moves {w w' : RuntimeWork ι} (h : Inv w)
    (hsame : w' = { w with collections := w'.collections })
    (hmoves : ∀ (n : Nat) (c' : Collection ι), w'.collections[n]? = some c' →
      ∃ c, w.collections[n]? = some c ∧ CollectionMove w c c') : Inv w' := by
  rw [hsame]
  refine ⟨?_, h.controller, h.maintaining, h.maintenance, ?_, ?_, ?_, ?_, h.closing, ?_, ?_⟩
  · intro n c' hc' hlive
    obtain ⟨c, hc, hmove⟩ := hmoves n c' hc'
    exact h.running n c hc (hmove.live hlive)
  · intro n c' maintaining hc' hphase
    obtain ⟨c, hc, hmove⟩ := hmoves n c' hc'
    exact h.reserved n c maintaining hc (hmove.reserved maintaining hphase)
  · intro n c' hc' hcollecting
    obtain ⟨c, hc, hmove⟩ := hmoves n c' hc'
    exact hmove.collecting hcollecting
  · intro hclosed n c' hc' hlive
    obtain ⟨c, hc, hmove⟩ := hmoves n c' hc'
    exact hmove.aborted (h.aborted hclosed n c hc (hmove.live hlive))
  · intro n c' hc'
    obtain ⟨c, hc, hmove⟩ := hmoves n c' hc'
    rw [hmove.startedGeneration]
    exact h.generations n c hc
  · intro running maintaining hclosing
    obtain ⟨hopen, hrenews⟩ := h.waits running maintaining hclosing
    refine ⟨?_, hrenews⟩
    intro n c' hc' hphase
    obtain ⟨c, hc, hmove⟩ := hmoves n c' hc'
    exact hopen n c hc (hmove.stays_open hphase)
  · intro hclosing
    obtain ⟨hopen, hrenews⟩ := h.resolved hclosing
    refine ⟨?_, hrenews⟩
    intro n c' hc'
    obtain ⟨c, hc, hmove⟩ := hmoves n c' hc'
    by_contra hphase
    have hstill := hmove.stays_open (eq_true_of_ne_false hphase)
    rw [hopen n c hc] at hstill
    cases hstill

/-- A collection moves as it may. -/
theorem Inv.onCollection {w : RuntimeWork ι} (h : Inv w) {n : Nat} {f : Collection ι → Collection ι}
    (hf : ∀ c, w.collections[n]? = some c → CollectionMove w c (f c)) : Inv (w.onCollection n f) := by
  refine h.of_moves rfl fun i c' hc' => ?_
  obtain ⟨c, hc, rfl⟩ := getElem?_modify_some hc'
  refine ⟨c, hc, ?_⟩
  split_ifs with hi
  · subst hi
    exact hf c hc
  · exact CollectionMove.refl h hc

/-- How a renewal may go on without touching the flags. -/
structure RenewalMove (r r' : Renewal) : Prop where
  returned : r.phase = .returned → r'.phase = .returned
  renewing : r'.phase = .renewing → r.phase = .renewing

/-- A renewal that is going on. -/
theorem isRenewing_iff {w : RuntimeWork ι} {m : Nat} :
    w.isRenewing m = true ↔ ∃ r, w.renewals[m]? = some r ∧ r.phase = .renewing := by
  unfold isRenewing
  rw [Option.any_eq_true]
  exact exists_congr fun r => and_congr_right fun _ => decide_eq_true_iff

/-- The renewals of `w'` are those of `w`, each gone on. -/
theorem Inv.of_renewals {w w' : RuntimeWork ι} (h : Inv w)
    (hsame : w' = { w with renewals := w'.renewals })
    (hmoves : ∀ (m : Nat) (r' : Renewal), w'.renewals[m]? = some r' →
      ∃ r, w.renewals[m]? = some r ∧ RenewalMove r r') : Inv w' := by
  have hrenewing : ∀ m, w'.isRenewing m = true → w.isRenewing m = true := by
    intro m hm
    obtain ⟨r', hr', hphase⟩ := isRenewing_iff.mp hm
    obtain ⟨r, hr, hmove⟩ := hmoves m r' hr'
    exact isRenewing_iff.mpr ⟨r, hr, hmove.renewing hphase⟩
  have hquiet : ∀ m, w.isRenewing m = false → w'.isRenewing m = false := by
    intro m hm
    by_contra hne
    have hback := hrenewing m (eq_true_of_ne_false hne)
    rw [hm] at hback
    cases hback
  rw [hsame] at hrenewing hquiet ⊢
  refine ⟨h.running, h.controller, ?_, h.maintenance, h.reserved, ?_, h.aborted, h.generations,
    h.closing, ?_, ?_⟩
  · intro m r' hr' hphase
    obtain ⟨r, hr, hmove⟩ := hmoves m r' hr'
    exact h.maintaining m r hr fun hreturned => hphase (hmove.returned hreturned)
  · intro n c hc hcollecting m
    exact hquiet m (h.collecting n c hc hcollecting m)
  · intro running maintaining hclosing
    obtain ⟨hopen, hrenews⟩ := h.waits running maintaining hclosing
    exact ⟨hopen, fun m hm => hrenews m (hrenewing m hm)⟩
  · intro hclosing
    obtain ⟨hopen, hrenews⟩ := h.resolved hclosing
    exact ⟨hopen, fun m => hquiet m (hrenews m)⟩

/-- A renewal moves as it may. -/
theorem Inv.onRenewal {w : RuntimeWork ι} (h : Inv w) {m : Nat} {f : Renewal → Renewal}
    (hf : ∀ r, w.renewals[m]? = some r → RenewalMove r (f r)) : Inv (w.onRenewal m f) := by
  refine h.of_renewals rfl fun j r' hr' => ?_
  obtain ⟨r, hr, rfl⟩ := getElem?_modify_some hr'
  refine ⟨r, hr, ?_⟩
  split_ifs with hj
  · subst hj
    exact hf r hr
  · exact ⟨id, id⟩

/-! ### Aborts -/

/-- An abort sets the signal of the collection in flight. -/
theorem abortCollection_get {w : RuntimeWork ι} {n : Nat} {c' : Collection ι}
    (h : w.abortCollection.collections[n]? = some c') :
    ∃ c, w.collections[n]? = some c ∧
      c' = { c with aborted := c.aborted || w.collectionController = some n } := by
  unfold abortCollection at h
  cases hcontroller : w.collectionController with
  | none =>
      rw [hcontroller] at h
      refine ⟨c', h, ?_⟩
      rw [decide_eq_false nofun, Bool.or_false]
  | some i =>
      rw [hcontroller] at h
      obtain ⟨c, hc, rfl⟩ := getElem?_modify_some h
      refine ⟨c, hc, ?_⟩
      split_ifs with hi
      · rw [hi, decide_eq_true rfl, Bool.or_true]
      · rw [decide_eq_false fun heq => hi (Option.some.inj heq), Bool.or_false]

/-- Aborting asks a renewal to stop; it does not move it. -/
theorem abortRenewal_get {w : RuntimeWork ι} {m : Nat} {r' : Renewal}
    (h : w.abortRenewal.renewals[m]? = some r') :
    ∃ r, w.renewals[m]? = some r ∧ r'.phase = r.phase := by
  unfold abortRenewal at h
  cases hcontroller : w.maintenanceController with
  | none =>
      rw [hcontroller] at h
      exact ⟨r', h, rfl⟩
  | some i =>
      rw [hcontroller] at h
      obtain ⟨r, hr, rfl⟩ := getElem?_modify_some h
      refine ⟨r, hr, ?_⟩
      split_ifs <;> rfl

/-- Asking a collection to stop keeps the invariant. -/
theorem Inv.abortCollection {w : RuntimeWork ι} (h : Inv w) : Inv w.abortCollection := by
  refine h.of_moves rfl fun n c' hc' => ?_
  obtain ⟨c, hc, rfl⟩ := abortCollection_get hc'
  exact ⟨c, hc, id, id, fun _ => id, h.collecting n c hc, fun haborted => by rw [haborted]; rfl, rfl⟩

/-- `stop` asks the collection at hand to stop. -/
theorem stopped_get {w : RuntimeWork ι} {n : Nat} {c' : Collection ι}
    (h : w.stopped.collections[n]? = some c') :
    ∃ c, w.collections[n]? = some c ∧
      c' = { c with aborted := c.aborted || w.collectionController = some n } :=
  abortCollection_get h

/-- It moves no renewal. -/
theorem stopped_renewal {w : RuntimeWork ι} {m : Nat} {r' : Renewal}
    (h : w.stopped.renewals[m]? = some r') : ∃ r, w.renewals[m]? = some r ∧ r'.phase = r.phase :=
  abortRenewal_get h

/-- `stop` keeps the invariant, also at the moment the runtime closes. -/
theorem Inv.stopped {w : RuntimeWork ι} (h : Inv w) (closed : Bool)
    (hclosed : w.closed = true → closed = true) :
    Inv (RuntimeWork.stopped { w with closed }) := by
  have hmoved := @stopped_get ι { w with closed }
  have hrenewed := @stopped_renewal ι { w with closed }
  have hquiet : ∀ m, w.isRenewing m = false → (RuntimeWork.stopped { w with closed }).isRenewing m = false := by
    intro m hm
    by_contra hne
    obtain ⟨r', hr', hphase⟩ := isRenewing_iff.mp (eq_true_of_ne_false hne)
    obtain ⟨r, hr, hsame⟩ := hrenewed hr'
    have hback : w.isRenewing m = true := isRenewing_iff.mpr ⟨r, hr, hsame.symm.trans hphase⟩
    rw [hm] at hback
    cases hback
  refine ⟨?_, h.controller, ?_, h.maintenance, ?_, ?_, ?_, ?_, ?_, ?_, ?_⟩
  · intro n c' hc' hlive
    obtain ⟨c, hc, rfl⟩ := hmoved hc'
    exact h.running n c hc hlive
  · intro m r' hr' hphase
    obtain ⟨r, hr, hsame⟩ := hrenewed hr'
    exact h.maintaining m r hr (hsame ▸ hphase)
  · intro n c' maintaining hc' hphase
    obtain ⟨c, hc, rfl⟩ := hmoved hc'
    exact h.reserved n c maintaining hc hphase
  · intro n c' hc' hcollecting m
    obtain ⟨c, hc, rfl⟩ := hmoved hc'
    exact hquiet m (h.collecting n c hc hcollecting m)
  · -- the live collection is the one that the controller aborts
    intro _ n c' hc' hlive
    obtain ⟨c, hc, rfl⟩ := hmoved hc'
    have hcontroller : w.collectionController = some n := h.controller.trans (h.running n c hc hlive)
    exact Bool.or_eq_true_iff.mpr (.inr (decide_eq_true hcontroller))
  · intro n c' hc'
    obtain ⟨c, hc, rfl⟩ := hmoved hc'
    have hle := (h.generations n c hc).1
    exact ⟨Nat.le_succ_of_le hle, fun _ => Nat.lt_succ_of_le hle⟩
  · exact fun hclosing => hclosed (h.closing hclosing)
  · intro running maintaining hclosing
    obtain ⟨hopen, hrenews⟩ := h.waits running maintaining hclosing
    refine ⟨?_, fun m hm => hrenews m ?_⟩
    · intro n c' hc' hphase
      obtain ⟨c, hc, rfl⟩ := hmoved hc'
      exact hopen n c hc hphase
    · by_contra hne
      have hstill := hquiet m (eq_false_of_ne_true hne)
      rw [hstill] at hm
      cases hm
  · intro hclosing
    obtain ⟨hopen, hrenews⟩ := h.resolved hclosing
    refine ⟨?_, fun m => hquiet m (hrenews m)⟩
    intro n c' hc'
    obtain ⟨c, hc, rfl⟩ := hmoved hc'
    exact hopen n c hc

/-! ### Tasks that begin and end -/

/-- A collection is reserved when none is running. -/
theorem Inv.reserve {w : RuntimeWork ι} (h : Inv w) (hclosed : w.closed = false)
    (hidle : w.running = none) (caller : Caller) : Inv (w.reserve caller) := by
  have hclosing : w.closing = none := by
    by_contra hne
    rw [h.closing hne] at hclosed
    cases hclosed
  have hdead : ∀ (n : Nat) (c : Collection ι), w.collections[n]? = some c → c.phase.isLive = false := by
    intro n c hc
    by_contra hlive
    rw [h.running n c hc (eq_true_of_ne_false hlive)] at hidle
    cases hidle
  refine ⟨?_, rfl, h.maintaining, h.maintenance, ?_, ?_, ?_, ?_, h.closing, ?_, ?_⟩
  · intro n c hc hlive
    rcases getElem?_concat_some hc with hc | ⟨rfl, rfl⟩
    · rw [hdead n c hc] at hlive
      cases hlive
    · rfl
  · intro n c maintaining hc hphase
    rcases getElem?_concat_some hc with hc | ⟨rfl, rfl⟩
    · exact h.reserved n c maintaining hc hphase
    · cases hphase
      exact .inr rfl
  · intro n c hc hcollecting
    rcases getElem?_concat_some hc with hc | ⟨rfl, rfl⟩
    · exact h.collecting n c hc hcollecting
    · cases hcollecting
  · intro hcontra
    rw [show w.closed = true from hcontra] at hclosed
    cases hclosed
  · intro n c hc
    rcases getElem?_concat_some hc with hc | ⟨rfl, rfl⟩
    · exact h.generations n c hc
    · refine ⟨le_refl _, fun hcontra => ?_⟩
      rw [show w.closed = true from hcontra] at hclosed
      cases hclosed
  · intro running maintaining hcontra
    rw [show w.closing = _ from hcontra] at hclosing
    cases hclosing
  · intro hcontra
    rw [show w.closing = _ from hcontra] at hclosing
    cases hclosing

/-- No collection is live once the one that runs returns. -/
theorem Inv.returns {w : RuntimeWork ι} (h : Inv w) {n : Nat} {result : Settlement}
    (hphase : w.phase? n = some (.settled result)) : Inv (w.returns n result) := by
  obtain ⟨c, hc, hsettled⟩ := Option.map_eq_some_iff.mp hphase
  have hmoved : Inv (w.setPhase n (.returned result)) := by
    refine h.onCollection fun c _ => ⟨nofun, nofun, nofun, nofun, id, rfl⟩
  have hrunning : w.running = some n := h.running n c hc (by rw [hsettled]; rfl)
  refine ⟨?_, rfl, hmoved.maintaining, hmoved.maintenance, hmoved.reserved, hmoved.collecting,
    hmoved.aborted, hmoved.generations, hmoved.closing, hmoved.waits, hmoved.resolved⟩
  intro i c' hc' hlive
  obtain ⟨b, hb, rfl⟩ := getElem?_modify_some hc'
  split_ifs at hlive with hi
  · cases hlive
  · rw [h.running i b hb hlive] at hrunning
    exact absurd (Option.some.inj hrunning).symm hi

/-- A renewal starts when nothing is running. -/
theorem Inv.startRenewal {w : RuntimeWork ι} (h : Inv w) (hidle : w.running = none)
    (hnone : w.maintaining = none) (hclosed : w.closed = false) (now : Instant) :
    Inv (w.startRenewal now) := by
  have hclosing : w.closing = none := by
    by_contra hne
    rw [h.closing hne] at hclosed
    cases hclosed
  have hdead : ∀ (n : Nat) (c : Collection ι), w.collections[n]? = some c → c.phase.isLive = false := by
    intro n c hc
    by_contra hlive
    rw [h.running n c hc (eq_true_of_ne_false hlive)] at hidle
    cases hidle
  refine ⟨h.running, h.controller, ?_, rfl, ?_, ?_, h.aborted, h.generations, h.closing, ?_, ?_⟩
  · intro m r hr hphase
    rcases getElem?_concat_some hr with hr | ⟨rfl, rfl⟩
    · rw [h.maintaining m r hr hphase] at hnone
      cases hnone
    · rfl
  · intro n c maintaining hc hphase
    have hlive := hdead n c hc
    rw [hphase] at hlive
    cases hlive
  · intro n c hc hcollecting
    have hlive := hdead n c hc
    rw [CollectionPhase.live_of_open (CollectionPhase.open_of_collecting hcollecting)] at hlive
    cases hlive
  · intro running maintaining hcontra
    rw [show w.closing = _ from hcontra] at hclosing
    cases hclosing
  · intro hcontra
    rw [show w.closing = _ from hcontra] at hclosing
    cases hclosing

/-- A renewal that has settled returns. -/
theorem Inv.renewalReturns {w : RuntimeWork ι} (h : Inv w) {m : Nat} {r : Renewal}
    (hr : w.renewals[m]? = some r) (hphase : r.phase ≠ .renewing ∧ r.phase ≠ .returned) :
    Inv (w.renewalReturns m) := by
  have hmoved : Inv (w.onRenewal m fun r => { r with phase := .returned }) :=
    h.onRenewal fun r _ => ⟨fun _ => rfl, nofun⟩
  have hmaintaining : w.maintaining = some m := h.maintaining m r hr hphase.2
  refine ⟨hmoved.running, hmoved.controller, ?_, rfl, fun _ _ _ _ _ => .inl rfl, hmoved.collecting,
    hmoved.aborted, hmoved.generations, hmoved.closing, hmoved.waits, hmoved.resolved⟩
  intro j r' hr' hlive
  obtain ⟨b, hb, rfl⟩ := getElem?_modify_some hr'
  split_ifs at hlive with hj
  · exact absurd rfl hlive
  · rw [h.maintaining j b hb hlive] at hmaintaining
    exact absurd (Option.some.inj hmaintaining).symm hj

/-! ### The steps -/

/-- Nothing renews once the renewal that a collection awaited is done. -/
theorem Inv.not_renewing {w : RuntimeWork ι} (h : Inv w) {n : Nat} {c : Collection ι}
    {maintaining : Option Nat} (hc : w.collections[n]? = some c)
    (hphase : c.phase = .reserved maintaining) (hdone : w.renewalDone maintaining = true) (m : Nat) :
    w.isRenewing m = false := by
  by_contra hne
  obtain ⟨r, hr, hrenewing⟩ := isRenewing_iff.mp (eq_true_of_ne_false hne)
  have hmaintaining := h.maintaining m r hr (by rw [hrenewing]; exact nofun)
  rcases h.reserved n c maintaining hc hphase with hnone | hsame
  · rw [hmaintaining] at hnone
    cases hnone
  · rw [← hsame, hmaintaining] at hdone
    unfold renewalDone at hdone
    rw [Option.all_some, eq_true_of_ne_false hne] at hdone
    cases hdone

/-- A collection and its phase. -/
theorem phase?_eq_some {w : RuntimeWork ι} {n : Nat} {phase : CollectionPhase ι} :
    w.phase? n = some phase ↔ ∃ c, w.collections[n]? = some c ∧ c.phase = phase :=
  Option.map_eq_some_iff

/-- A collection in flight goes on or is settled. -/
theorem Inv.setPhase {w : RuntimeWork ι} (h : Inv w) {n : Nat} {before after : CollectionPhase ι}
    (hphase : w.phase? n = some before) (hopen : before.isOpen = true)
    (hreserved : ∀ maintaining, after ≠ .reserved maintaining)
    (hcollecting : after.isCollecting = true → before.isCollecting = true) :
    Inv (w.setPhase n after) := by
  obtain ⟨b, hb, rfl⟩ := phase?_eq_some.mp hphase
  refine h.onCollection fun c hc => ?_
  obtain rfl := Option.some.inj (hb.symm.trans hc)
  exact ⟨fun _ => CollectionPhase.live_of_open hopen, fun _ => hopen,
    fun maintaining heq => absurd heq (hreserved maintaining),
    fun hafter => h.collecting n b hb (hcollecting hafter), id, rfl⟩

/-- **Every change keeps the invariant.** -/
theorem Inv.step {options : RuntimeOptions ι} {w w' : RuntimeWork ι} (h : Inv w)
    (hstep : WorkStep options w w') : Inv w' := by
  cases hstep with
  | reserves caller hclosed hidle _ => exact h.reserve hclosed hidle caller
  | attemptReserves k now o hclosed hidle ho hdue htime =>
      exact (h.reserve hclosed hidle (.scheduled k)).of_same rfl
  | attemptRefused k now o ho hdue htime => exact h.of_same rfl
  | begins n c maintaining collect hc hphase hdone hclosed haborted hgeneration hcollect =>
      refine h.onCollection fun b hb => ?_
      obtain rfl := Option.some.inj (hc.symm.trans hb)
      have hlive : c.phase.isLive = true := by rw [hphase]; rfl
      have hopen : c.phase.isOpen = true := by rw [hphase]; rfl
      exact ⟨fun _ => hlive, fun _ => hopen, nofun, fun _ => h.not_renewing hc hphase hdone, id, rfl⟩
  | refuses n maintaining hphase => exact h.setPhase hphase rfl nofun nofun
  | performs n effect answer next hphase =>
      have hmoved : Inv (w.setPhase n (.collecting (next answer))) :=
        h.setPhase hphase rfl nofun fun _ => rfl
      exact hmoved.of_same rfl
  | resumes n answer next hphase => exact h.setPhase hphase rfl nofun fun _ => rfl
  | settles n status hphase => exact h.setPhase hphase rfl nofun nofun
  | fails n error result hphase _ => exact h.setPhase hphase rfl nofun nofun
  | writes op hopen => exact h.of_same rfl
  | returns n result hphase => exact h.returns hphase
  | renews now hidle hnone hclosed => exact h.startRenewal hidle hnone hclosed now
  | renewed m result hphase =>
      obtain ⟨b, hb, hrenewing⟩ := isRenewing_iff.mp hphase
      refine h.onRenewal fun r hr => ⟨?_, nofun⟩
      obtain rfl := Option.some.inj (hb.symm.trans hr)
      intro hreturned
      rw [hrenewing] at hreturned
      cases hreturned
  | renewalReturns m r hr hphase => exact h.renewalReturns hr hphase
  | aborts => exact h.abortCollection
  | stops => exact h.stopped w.closed id
  | shuts hclosing => exact h.stopped true fun _ => rfl
  | closes hclosed hclosing =>
      refine ⟨h.running, h.controller, h.maintaining, h.maintenance, h.reserved, h.collecting,
        h.aborted, h.generations, fun _ => hclosed, ?_, nofun⟩
      intro running maintaining heq
      cases heq
      refine ⟨fun n c hc hopen => h.running n c hc (CollectionPhase.live_of_open hopen), ?_⟩
      intro m hm
      obtain ⟨r, hr, hrenewing⟩ := isRenewing_iff.mp hm
      exact h.maintaining m r hr (by rw [hrenewing]; exact nofun)
  | closeResolves running maintaining result hclosing hrunning hdone =>
      obtain ⟨hopen, hrenews⟩ := h.waits running maintaining hclosing
      refine ⟨h.running, h.controller, h.maintaining, h.maintenance, h.reserved, h.collecting,
        h.aborted, h.generations, fun _ => h.closing (by rw [hclosing]; exact nofun), nofun,
        fun _ => ⟨?_, ?_⟩⟩
      · intro n c hc
        by_contra hphase
        obtain rfl := hopen n c hc (eq_true_of_ne_false hphase)
        unfold runningResult phase? at hrunning
        dsimp only at hrunning
        rw [hc, Option.map_some] at hrunning
        cases hcase : c.phase with
        | reserved m => rw [hcase] at hrunning; cases hrunning
        | collecting p => rw [hcase] at hrunning; cases hrunning
        | settled r => rw [hcase] at hphase; exact hphase rfl
        | returned r => rw [hcase] at hphase; exact hphase rfl
      · intro m
        by_contra hm
        have hrenewing : w.isRenewing m = true := eq_true_of_ne_false hm
        obtain rfl := hrenews m hrenewing
        unfold renewalDone at hdone
        rw [Option.all_some, hrenewing] at hdone
        cases hdone
  | closeRejects running maintaining hclosing =>
      exact ⟨h.running, h.controller, h.maintaining, h.maintenance, h.reserved, h.collecting,
        h.aborted, h.generations, fun _ => h.closing (by rw [hclosing]; exact nofun), nofun, nofun⟩
  | occurs deadline => exact h.of_same rfl
  | «over» k scheduled hphase => exact h.of_same rfl
  | retries k o collection status ho hphase hawaited hbusy => exact h.of_same rfl

/-! ## What holds from a state on -/

/-- What changes add up to: the generation grows, a collection of an earlier
generation that has not begun never begins, and once the runtime is closing only
collectors with an aborted signal write, and none once it is closed. -/
structure Evolves (w w' : RuntimeWork ι) : Prop where
  generation : w.generation ≤ w'.generation
  closing : w.closing ≠ none → w'.closing ≠ none
  resolved : w.closing = some .resolved → w'.closing = some .resolved
  unbegun : ∀ (n : Nat) (c : Collection ι), w.collections[n]? = some c → c.begun = false →
    c.startedGeneration < w.generation → ∃ c', w'.collections[n]? = some c' ∧ c'.begun = false ∧
      c'.startedGeneration = c.startedGeneration
  writes : ∃ new, w'.writes = w.writes ++ new ∧
    (w.closing ≠ none → ∀ write ∈ new, ∃ n, write.writer = .collector n true) ∧
    (w.closing = some .resolved → new = [])

/-- Nothing has happened. -/
theorem Evolves.refl (w : RuntimeWork ι) : Evolves w w where
  generation := le_refl _
  closing := id
  resolved := id
  unbegun _ c hc hbegun _ := ⟨c, hc, hbegun, rfl⟩
  writes := ⟨[], (List.append_nil _).symm, fun _ => List.forall_mem_nil _, fun _ => rfl⟩

/-- What has happened has happened. -/
theorem Evolves.trans {a b c : RuntimeWork ι} (hab : Evolves a b) (hbc : Evolves b c) :
    Evolves a c where
  generation := hab.generation.trans hbc.generation
  closing h := hbc.closing (hab.closing h)
  resolved h := hbc.resolved (hab.resolved h)
  unbegun n x hx hbegun hlt := by
    obtain ⟨y, hy, hybegun, hystarted⟩ := hab.unbegun n x hx hbegun hlt
    obtain ⟨z, hz, hzbegun, hzstarted⟩ := hbc.unbegun n y hy hybegun
      (hystarted ▸ hlt.trans_le hab.generation)
    exact ⟨z, hz, hzbegun, hzstarted.trans hystarted⟩
  writes := by
    obtain ⟨new, hnew, hclosing, hresolved⟩ := hab.writes
    obtain ⟨more, hmore, hclosing', hresolved'⟩ := hbc.writes
    refine ⟨new ++ more, ?_, ?_, ?_⟩
    · rw [hmore, hnew, List.append_assoc]
    · intro h write hwrite
      rcases List.mem_append.mp hwrite with hwrite | hwrite
      · exact hclosing h write hwrite
      · exact hclosing' (hab.closing h) write hwrite
    · intro h
      rw [hresolved h, hresolved' (hab.resolved h)]
      rfl

/-- A change that neither writes nor closes, and begins no collection of an
earlier generation. -/
theorem Evolves.of_quiet {w w' : RuntimeWork ι} (hgeneration : w.generation ≤ w'.generation)
    (hclosing : w'.closing = w.closing) (hwrites : w'.writes = w.writes)
    (hunbegun : ∀ (n : Nat) (c : Collection ι), w.collections[n]? = some c → c.begun = false →
      c.startedGeneration < w.generation → ∃ c', w'.collections[n]? = some c' ∧ c'.begun = false ∧
        c'.startedGeneration = c.startedGeneration) : Evolves w w' where
  generation := hgeneration
  closing := by rw [hclosing]; exact id
  resolved := by rw [hclosing]; exact id
  unbegun := hunbegun
  writes := ⟨[], by rw [hwrites, List.append_nil], fun _ => List.forall_mem_nil _, fun _ => rfl⟩

/-- Collections are kept by what leaves them alone. -/
theorem unbegun_of_same {w w' : RuntimeWork ι} (hsame : w'.collections = w.collections) (n : Nat)
    (c : Collection ι) (hc : w.collections[n]? = some c) (hbegun : c.begun = false)
    (_ : c.startedGeneration < w.generation) : ∃ c', w'.collections[n]? = some c' ∧
      c'.begun = false ∧ c'.startedGeneration = c.startedGeneration :=
  ⟨c, hsame ▸ hc, hbegun, rfl⟩

/-- No collection begins when another one moves. -/
theorem unbegun_of_modify {w w' : RuntimeWork ι} {i : Nat} {f : Collection ι → Collection ι}
    (hsame : w'.collections = w.collections.modify i f)
    (hf : ∀ c, w.collections[i]? = some c → c.begun = false → c.startedGeneration < w.generation →
      (f c).begun = false ∧ (f c).startedGeneration = c.startedGeneration)
    (n : Nat) (c : Collection ι) (hc : w.collections[n]? = some c) (hbegun : c.begun = false)
    (hlt : c.startedGeneration < w.generation) : ∃ c', w'.collections[n]? = some c' ∧
      c'.begun = false ∧ c'.startedGeneration = c.startedGeneration := by
  refine ⟨_, hsame ▸ getElem?_modify_of_some f i hc, ?_⟩
  split_ifs with hi
  · subst hi
    exact hf c hc hbegun hlt
  · exact ⟨hbegun, rfl⟩

/-- None begins when one is added. -/
theorem unbegun_of_concat {w w' : RuntimeWork ι} {added : Collection ι}
    (hsame : w'.collections = w.collections ++ [added]) (n : Nat) (c : Collection ι)
    (hc : w.collections[n]? = some c) (hbegun : c.begun = false)
    (_ : c.startedGeneration < w.generation) : ∃ c', w'.collections[n]? = some c' ∧
      c'.begun = false ∧ c'.startedGeneration = c.startedGeneration := by
  refine ⟨c, ?_, hbegun, rfl⟩
  rw [hsame, List.getElem?_append_left (List.getElem?_eq_some_iff.mp hc).1]
  exact hc

/-- A change of phase. -/
theorem evolves_setPhase (w : RuntimeWork ι) (n : Nat) (phase : CollectionPhase ι) :
    Evolves w (w.setPhase n phase) :=
  .of_quiet (le_refl _) rfl rfl (unbegun_of_modify rfl fun _ _ hbegun _ => ⟨hbegun, rfl⟩)

/-- A collection that is asked to stop. -/
theorem evolves_abortCollection (w : RuntimeWork ι) : Evolves w w.abortCollection := by
  refine .of_quiet (le_refl _) rfl rfl ?_
  unfold RuntimeWork.abortCollection
  cases w.collectionController with
  | none => exact unbegun_of_same rfl
  | some i => exact unbegun_of_modify rfl fun _ _ hbegun _ => ⟨hbegun, rfl⟩

/-- `stop`. -/
theorem evolves_stopped (w : RuntimeWork ι) (closed : Bool) :
    Evolves w (RuntimeWork.stopped { w with closed }) := by
  have habort := evolves_abortCollection w
  exact .of_quiet (Nat.le_succ _) rfl rfl habort.unbegun

/-- The writes of an answered effect. -/
theorem evolves_performed {w : RuntimeWork ι} (h : Inv w) {n : Nat} {effect : CollectorEffect}
    {program rest : Collector ι CollectionStatus} (answer : effect.Answer)
    (hphase : w.phase? n = some (.collecting program)) :
    Evolves w (w.performed n effect answer rest) := by
  obtain ⟨c, hc, hcollecting⟩ := phase?_eq_some.mp hphase
  have hopen : c.phase.isOpen = true := by rw [hcollecting]; rfl
  have hmoved := evolves_setPhase w n (.collecting rest)
  refine ⟨le_refl _, id, id, hmoved.unbegun, _, rfl, ?_, ?_⟩
  · intro hclosing write hwrite
    obtain ⟨op, -, rfl⟩ := List.mem_map.mp hwrite
    refine ⟨n, ?_⟩
    have haborted := h.aborted (h.closing hclosing) n c hc (CollectionPhase.live_of_open hopen)
    unfold isAborted
    rw [hc, Option.any_some, haborted]
  · intro hresolved
    have hdead := (h.resolved hresolved).1 n c hc
    rw [hopen] at hdead
    cases hdead

/-- **Every change is an evolution.** -/
theorem Inv.evolves {options : RuntimeOptions ι} {w w' : RuntimeWork ι} (h : Inv w)
    (hstep : WorkStep options w w') : Evolves w w' := by
  cases hstep with
  | reserves caller _ _ _ => exact .of_quiet (le_refl _) rfl rfl (unbegun_of_concat rfl)
  | attemptReserves k now o _ _ _ _ _ => exact .of_quiet (le_refl _) rfl rfl (unbegun_of_concat rfl)
  | attemptRefused k now o _ _ _ => exact .of_quiet (le_refl _) rfl rfl (unbegun_of_same rfl)
  | begins n c maintaining collect hc _ _ _ _ hgeneration _ =>
      -- a collection of an earlier generation is refused
      refine .of_quiet (le_refl _) rfl rfl (unbegun_of_modify rfl fun b hb _ hlt => ?_)
      obtain rfl := Option.some.inj (hc.symm.trans hb)
      omega
  | refuses n maintaining _ => exact evolves_setPhase w n _
  | performs n effect answer next hphase =>
      exact evolves_performed h answer hphase
  | resumes n answer next _ => exact evolves_setPhase w n _
  | settles n status _ => exact evolves_setPhase w n _
  | fails n error result _ _ => exact evolves_setPhase w n _
  | writes op hopen =>
      exact ⟨le_refl _, id, id, unbegun_of_same rfl, _, rfl, fun hne => absurd hopen hne,
        fun hresolved => absurd (hopen.symm.trans hresolved) nofun⟩
  | returns n result _ => exact .of_quiet (le_refl _) rfl rfl (evolves_setPhase w n _).unbegun
  | renews now _ _ _ => exact .of_quiet (le_refl _) rfl rfl (unbegun_of_same rfl)
  | renewed m result _ => exact .of_quiet (le_refl _) rfl rfl (unbegun_of_same rfl)
  | renewalReturns m r _ _ => exact .of_quiet (le_refl _) rfl rfl (unbegun_of_same rfl)
  | aborts => exact evolves_abortCollection w
  | stops => exact evolves_stopped w w.closed
  | shuts _ => exact evolves_stopped w true
  | closes _ hclosing =>
      exact ⟨le_refl _, fun _ => nofun, fun hresolved => absurd (hclosing.symm.trans hresolved) nofun,
        unbegun_of_same rfl, [], (List.append_nil _).symm, fun _ => List.forall_mem_nil _, fun _ => rfl⟩
  | closeResolves running maintaining result _ _ _ =>
      exact ⟨le_refl _, fun _ => nofun, fun _ => rfl, unbegun_of_same rfl, [],
        (List.append_nil _).symm, fun _ => List.forall_mem_nil _, fun _ => rfl⟩
  | closeRejects running maintaining hclosing =>
      exact ⟨le_refl _, fun _ => nofun, fun hresolved => absurd (hclosing.symm.trans hresolved) nofun,
        unbegun_of_same rfl, [], (List.append_nil _).symm, fun _ => List.forall_mem_nil _, fun _ => rfl⟩
  | occurs deadline => exact .of_quiet (le_refl _) rfl rfl (unbegun_of_same rfl)
  | «over» k scheduled _ => exact .of_quiet (le_refl _) rfl rfl (unbegun_of_same rfl)
  | retries k o collection status _ _ _ _ => exact .of_quiet (le_refl _) rfl rfl (unbegun_of_same rfl)

/-- **Every step keeps the invariant** and lets nothing begin that has expired.
-/
theorem Inv.steps {options : RuntimeOptions ι} {w w' : RuntimeWork ι} (h : Inv w)
    (hsteps : WorkSteps options w w') : Inv w' ∧ Evolves w w' := by
  induction hsteps with
  | refl => exact ⟨h, Evolves.refl w⟩
  | tail _ hstep ih => exact ⟨ih.1.step hstep, ih.2.trans (ih.1.evolves hstep)⟩

end RuntimeWork

end SimplefinBridge
