import SimplefinBridge.RuntimeChanges

/-!
# Exclusion in the investment runtime

Every step of the runtime is a sequence of its atomic changes, so at any time at
most one collection is in flight, it does not overlap a renewal, a stop is final
for what had not begun, and a closed runtime does not write.

A recovery that has not ended is the current one and holds its provider; that is
what keeps recoveries from persisting a status after the runtime has closed.
-/

namespace SimplefinBridge

namespace InvestmentRuntime

variable {ι : Type} {options : RuntimeOptions ι}

/-! ## Recoveries between steps -/

/-- A recovery that has not ended is the current one and holds the provider. -/
def CurrentHolds (options : RuntimeOptions ι) (w : InvestmentRuntime ι) : Prop :=
  ∀ (i : Nat) (r : ManualRecovery), w.recoveries[i]? = some r → r.terminal = false →
    w.manualRecovery = some i ∧ r.provider = options.provider.text ∧
      options.provider.text ∈ w.providerLeases

/-- Moreover none is left once the runtime has closed. -/
structure Held (options : RuntimeOptions ι) (w : InvestmentRuntime ι) : Prop where
  current : CurrentHolds options w
  closed : w.work.closed = true → w.work.closing ≠ none ∧
    ∀ (i : Nat) (r : ManualRecovery), w.recoveries[i]? = some r → r.terminal = true

/-- Nothing that `Held` is about has changed. -/
structure SameHolds (w w' : InvestmentRuntime ι) : Prop where
  recoveries : w'.recoveries = w.recoveries
  manualRecovery : w'.manualRecovery = w.manualRecovery
  providerLeases : w'.providerLeases = w.providerLeases
  closed : w'.work.closed = w.work.closed
  closing : w'.work.closing = w.work.closing

/-- A runtime holds what it holds. -/
theorem SameHolds.refl (w : InvestmentRuntime ι) : SameHolds w w := ⟨rfl, rfl, rfl, rfl, rfl⟩

/-- What two steps keep, both together keep. -/
theorem SameHolds.trans {a b c : InvestmentRuntime ι} (hab : SameHolds a b) (hbc : SameHolds b c) :
    SameHolds a c :=
  ⟨hbc.recoveries.trans hab.recoveries, hbc.manualRecovery.trans hab.manualRecovery,
    hbc.providerLeases.trans hab.providerLeases, hbc.closed.trans hab.closed,
    hbc.closing.trans hab.closing⟩

/-- Where the leases, the browser and the recoveries are the same, what is held
is well accounted for. -/
theorem SameHolds.held {w w' : InvestmentRuntime ι} (h : SameHolds w w') (hheld : Held options w) :
    Held options w' := by
  constructor
  · unfold CurrentHolds
    rw [h.recoveries, h.manualRecovery, h.providerLeases]
    exact hheld.current
  · rw [h.recoveries, h.closed, h.closing]
    exact hheld.closed

/-- The way from `w` to `w'` is made of atomic changes that leave the recoveries
alone. -/
structure Steps (options : RuntimeOptions ι) (w w' : InvestmentRuntime ι) : Prop where
  work : WorkSteps options w.work w'.work
  same : SameHolds w w'

/-- No step at all. -/
theorem Steps.refl (w : InvestmentRuntime ι) : Steps options w w := ⟨.refl, .refl w⟩

/-- Steps after steps. -/
theorem Steps.trans {a b c : InvestmentRuntime ι} (hab : Steps options a b) (hbc : Steps options b c) :
    Steps options a c := ⟨hab.work.trans hbc.work, hab.same.trans hbc.same⟩

/-- Every step of the work keeps the invariant. -/
theorem Steps.inv {w w' : InvestmentRuntime ι} (h : Steps options w w') (hinv : w.work.Inv) :
    w'.work.Inv := (hinv.steps h.work).1

/-- One step of the work that touches nothing else. -/
theorem Steps.single {w w' : InvestmentRuntime ι} (h : WorkStep options w.work w'.work)
    (hsame : SameHolds w w') : Steps options w w' := ⟨.single h, hsame⟩

/-- A runtime that is open has no one waiting for its end. -/
theorem closing_of_open {w : InvestmentRuntime ι} (hinv : w.work.Inv) (hclosed : w.work.closed = false) :
    w.work.closing = none := by
  by_contra hne
  rw [hinv.closing hne] at hclosed
  cases hclosed

/-! ## The store -/

/-- Reading the store moves no work. -/
theorem steps_read {ε α : Type} (program : EStateM ε (Statements.Session InvestmentDb) α)
    (w : InvestmentRuntime ι) :
    Steps options w (w.read program).2 := ⟨.refl, rfl, rfl, rfl, rfl, rfl⟩

/-- Writing to the store moves no work. -/
theorem steps_write {α : Type} (op : InvestmentOp) (program : InvestmentM α) {w : InvestmentRuntime ι}
    (hclosing : w.work.closing = none) : Steps options w (w.write op program).2 :=
  .single (.writes op hclosing) ⟨rfl, rfl, rfl, rfl, rfl⟩

/-- Recording a recovery in the store moves no work. -/
theorem steps_persist (status : ManualRecoveryStatus) {w : InvestmentRuntime ι}
    (hclosing : w.work.closing = none) : Steps options w (persist options status w) := by
  unfold persist
  cases status.stored with
  | none => exact .refl w
  | some recovery => exact steps_write _ _ hclosing

/-! ## Collections -/

/-- A collection that exists is in the phase that was set. -/
theorem phase?_setPhase {work : RuntimeWork ι} {n : Nat} {before : CollectionPhase ι}
    (h : work.phase? n = some before) (after : CollectionPhase ι) :
    (work.setPhase n after).phase? n = some after := by
  obtain ⟨c, hc, -⟩ := RuntimeWork.phase?_eq_some.mp h
  refine RuntimeWork.phase?_eq_some.mpr ⟨_, getElem?_modify_of_some _ n hc, ?_⟩
  rw [if_pos rfl]

/-- A change of phase that the work allows. -/
theorem steps_setPhase {w : InvestmentRuntime ι} {n : Nat} {phase : CollectionPhase ι}
    (h : WorkStep options w.work (w.work.setPhase n phase)) :
    Steps options w (w.update (·.setPhase n phase)) := .single h ⟨rfl, rfl, rfl, rfl, rfl⟩

/-- A signal that is not aborted belongs to a runtime that is not closing. -/
theorem closing_of_not_aborted {w : InvestmentRuntime ι} (hinv : w.work.Inv) {n : Nat}
    {program : Collector ι CollectionStatus} (hphase : w.work.phase? n = some (.collecting program))
    (haborted : w.work.isAborted n = false) : w.work.closing = none := by
  obtain ⟨c, hc, hcollecting⟩ := RuntimeWork.phase?_eq_some.mp hphase
  apply closing_of_open hinv
  by_contra hclosed
  have hset := hinv.aborted (eq_true_of_ne_false hclosed) n c hc (by rw [hcollecting]; rfl)
  unfold RuntimeWork.isAborted at haborted
  rw [hc, Option.any_some, hset] at haborted
  cases haborted

/-- A collection that fails writes its failure down and ends. -/
theorem steps_collectionFailed {w : InvestmentRuntime ι} (hinv : w.work.Inv) {n : Nat}
    {error : CollectionError} (hphase : w.work.phase? n = some (.collecting (.fail error)))
    (now : Instant) : Steps options w (collectionFailed options n now w) := by
  unfold collectionFailed
  cases haborted : w.work.isAborted n with
  | true =>
      rw [if_pos rfl]
      exact steps_setPhase (.fails n error _ hphase (by rintro status ⟨⟩; rfl))
  | false =>
      rw [if_neg Bool.false_ne_true]
      have hwrite := @steps_write ι options _ (.recordFailure ⟨.error, toIsoString now, .COLLECTION_FAILED⟩)
        (recordFailure options.provider ⟨.error, toIsoString now, .COLLECTION_FAILED⟩) w
        (closing_of_not_aborted hinv hphase haborted)
      dsimp only
      cases hresult : w.write (.recordFailure ⟨.error, toIsoString now, .COLLECTION_FAILED⟩)
        (recordFailure options.provider ⟨.error, toIsoString now, .COLLECTION_FAILED⟩) with
      | mk result w₁ =>
          have hphase₁ : w₁.work.phase? n = some (.collecting (.fail error)) := by
            rw [show w₁ = (w.write _ _).2 from (congrArg Prod.snd hresult).symm]
            exact hphase
          rw [hresult] at hwrite
          cases result with
          | ok u => exact hwrite.trans (steps_setPhase (.fails n error _ hphase₁ (by rintro status ⟨⟩; rfl)))
          | error e => exact hwrite.trans (steps_setPhase (.fails n error _ hphase₁ nofun))

/-- A collector runs to its next await by its effects. -/
theorem steps_runCollector (n : Nat) (now : Instant) (program : Collector ι CollectionStatus)
    {w : InvestmentRuntime ι} (hinv : w.work.Inv)
    (hphase : w.work.phase? n = some (.collecting program)) :
    Steps options w (runCollector options n now program w) := by
  induction program generalizing w with
  | ret status => exact steps_setPhase (.settles n status hphase)
  | fail error => exact steps_collectionFailed hinv hphase now
  | await next _ => exact .refl w
  | perform effect next ih =>
      unfold runCollector
      dsimp only
      have hstep := @WorkStep.performs ι options w.work n effect
        (effect.answer options.host options.provider (w.work.isAborted n) now w.session).1 next hphase
      let answered := effect.answer options.host options.provider (w.work.isAborted n) now w.session
      have hfirst : Steps options w { w with
          session := answered.2
          work := w.work.performed n effect answered.1 (next answered.1) } :=
        .single hstep ⟨rfl, rfl, rfl, rfl, rfl⟩
      exact hfirst.trans (ih _ (hfirst.inv hinv) (phase?_setPhase hphase _))

/-- A reserved collection begins once the renewal before it is over. -/
theorem steps_beginCollection {w : InvestmentRuntime ι} (hinv : w.work.Inv) {n : Nat}
    {maintaining : Option Nat} (hphase : w.work.phase? n = some (.reserved maintaining))
    (hdone : w.work.renewalDone maintaining = true) (now : Instant) :
    Steps options w (beginCollection options n now w) := by
  obtain ⟨c, hc, hreserved⟩ := RuntimeWork.phase?_eq_some.mp hphase
  unfold beginCollection
  rw [hc]
  cases hcollect : options.collect with
  | none => exact .refl w
  | some collect =>
      dsimp only
      split_ifs with hrefused
      · exact steps_setPhase (.refuses n maintaining hphase)
      · rw [Bool.not_eq_true, Bool.or_eq_false_iff, Bool.or_eq_false_iff, decide_eq_false_iff_not,
          not_not] at hrefused
        have hstep := WorkStep.begins n c maintaining collect hc hreserved hdone hrefused.1.1
          hrefused.1.2 hrefused.2 hcollect
        have hbegun : Steps options w (w.update (·.begins n (collect c.caller.isManual))) :=
          .single hstep ⟨rfl, rfl, rfl, rfl, rfl⟩
        refine hbegun.trans (steps_runCollector n now _ (hbegun.inv hinv) ?_)
        refine RuntimeWork.phase?_eq_some.mpr ⟨_, getElem?_modify_of_some _ n hc, ?_⟩
        rw [if_pos rfl]

/-- A collection just reserved goes on to its first await. -/
theorem steps_startReserved {w : InvestmentRuntime ι} (hinv : w.work.Inv) {n : Nat}
    (hphase : w.work.phase? n = some (.reserved w.work.maintaining)) (now : Instant) :
    Steps options w (startReserved options n now w) := by
  unfold startReserved
  dsimp only
  have hstarted : Steps options w { w with lastStartedAt := some now } := ⟨.refl, rfl, rfl, rfl, rfl, rfl⟩
  split_ifs with hmaintaining
  · exact hstarted
  · rw [Bool.not_eq_true, Option.isSome_eq_false_iff, Option.isNone_iff_eq_none] at hmaintaining
    rw [hmaintaining] at hphase
    exact hstarted.trans (steps_beginCollection (w := { w with lastStartedAt := some now }) hinv hphase rfl now)

/-! ## Recoveries -/

/-- An event of a recovery that does not exist changes nothing. -/
theorem onRecovery_none {w : InvestmentRuntime ι} {index : Nat} (h : w.recoveries[index]? = none)
    (event : RecoveryEvent) : onRecovery options index event w = w := by
  unfold onRecovery
  rw [h]

/-- Recording a recovery takes and returns no lease. -/
theorem same_persist (status : ManualRecoveryStatus) (w : InvestmentRuntime ι) :
    SameHolds w (persist options status w) := by
  unfold persist
  cases status.stored <;> exact ⟨rfl, rfl, rfl, rfl, rfl⟩

/-- What an event leaves of the recoveries. -/
theorem onRecovery_same {w : InvestmentRuntime ι} {index : Nat} {r : ManualRecovery}
    (h : w.recoveries[index]? = some r) (event : RecoveryEvent) :
    SameHolds (w.setRecovery index (recoveryStep event (w.providerLeases, r)))
      (onRecovery options index event w) := by
  unfold onRecovery
  rw [h]
  dsimp only
  have hpersist := @same_persist ι options (recoveryStep event (w.providerLeases, r)).2.status
    (w.setRecovery index (recoveryStep event (w.providerLeases, r)))
  have haborted : ∀ w : InvestmentRuntime ι, SameHolds w (w.update (·.abortCollection)) :=
    fun w => ⟨rfl, rfl, rfl, rfl, rfl⟩
  split_ifs
  · exact hpersist.trans (haborted _)
  · exact haborted _
  · exact hpersist
  · exact .refl _

/-- A recovery writes only before it has ended. -/
theorem onRecovery_steps {w : InvestmentRuntime ι} {index : Nat} (event : RecoveryEvent)
    (hclosing : ∀ r, w.recoveries[index]? = some r → r.terminal = false → w.work.closing = none) :
    WorkSteps options w.work (onRecovery options index event w).work := by
  cases h : w.recoveries[index]? with
  | none =>
      rw [onRecovery_none h]
  | some r =>
      have heffect := recoveryStep_effect event (w.providerLeases, r)
      have hpersist : r.persisted.length <
          (recoveryStep event (w.providerLeases, r)).2.persisted.length →
          Steps options (w.setRecovery index (recoveryStep event (w.providerLeases, r)))
            (persist options (recoveryStep event (w.providerLeases, r)).2.status
              (w.setRecovery index (recoveryStep event (w.providerLeases, r)))) :=
        fun hgrows => steps_persist _ (hclosing r h (heffect.open_of_persisted hgrows))
      unfold onRecovery
      rw [h]
      dsimp only
      split_ifs with haborts hgrows hgrows
      · exact (hpersist hgrows).work.tail .aborts
      · exact .single .aborts
      · exact (hpersist hgrows).work
      · exact .refl

/-- The recovery at hand keeps its lease until it is terminal. -/
theorem setRecovery_current {w : InvestmentRuntime ι} {index : Nat} {r : ManualRecovery}
    {event : RecoveryEvent} {s : RecoveryScope} (hheld : CurrentHolds options w)
    (hr : w.recoveries[index]? = some r) (heffect : RecoveryEffect event (w.providerLeases, r) s) :
    CurrentHolds options (w.setRecovery index s) := by
  intro j r' hr' hopen
  change (w.recoveries.set index s.2)[j]? = some r' at hr'
  change w.manualRecovery = some j ∧ r'.provider = _ ∧ _ ∈ s.1
  by_cases hj : index = j
  · subst hj
    rw [List.getElem?_set_self (List.getElem?_eq_some_iff.mp hr).1] at hr'
    obtain rfl := Option.some.inj hr'
    rcases heffect.lease with ⟨hleases, hterminal⟩ | ⟨-, -, hterminal⟩
    · obtain ⟨hcurrent, hprovider, hmem⟩ := hheld index r hr (hterminal.symm.trans hopen)
      exact ⟨hcurrent, heffect.provider.trans hprovider, hleases ▸ hmem⟩
    · rw [hterminal] at hopen
      cases hopen
  · rw [List.getElem?_set_ne hj] at hr'
    obtain ⟨hcurrent, hprovider, hmem⟩ := hheld j r' hr' hopen
    rcases heffect.lease with ⟨hleases, -⟩ | ⟨-, hother, -⟩
    · exact ⟨hcurrent, hprovider, hleases ▸ hmem⟩
    · have hindex := (hheld index r hr hother).1
      rw [hcurrent] at hindex
      exact absurd (Option.some.inj hindex).symm hj

/-- Where every recovery is terminal, an event leaves it so. -/
theorem setRecovery_terminal {w : InvestmentRuntime ι} {index : Nat} {r : ManualRecovery}
    {event : RecoveryEvent} {s : RecoveryScope} (hr : w.recoveries[index]? = some r)
    (heffect : RecoveryEffect event (w.providerLeases, r) s)
    (hall : ∀ (i : Nat) (r : ManualRecovery), w.recoveries[i]? = some r → r.terminal = true)
    (j : Nat) (r' : ManualRecovery) (hr' : (w.setRecovery index s).recoveries[j]? = some r') :
    r'.terminal = true := by
  change (w.recoveries.set index s.2)[j]? = some r' at hr'
  by_cases hj : index = j
  · subst hj
    rw [List.getElem?_set_self (List.getElem?_eq_some_iff.mp hr).1] at hr'
    obtain rfl := Option.some.inj hr'
    rcases heffect.lease with ⟨-, hterminal⟩ | ⟨-, -, hterminal⟩
    · exact hterminal.trans (hall index r hr)
    · exact hterminal
  · rw [List.getElem?_set_ne hj] at hr'
    exact hall j r' hr'

/-- Whatever a recovery does, the leases stay accounted for. -/
theorem onRecovery_held {w : InvestmentRuntime ι} (hheld : Held options w) (index : Nat)
    (event : RecoveryEvent) : Held options (onRecovery options index event w) := by
  cases hr : w.recoveries[index]? with
  | none => rwa [onRecovery_none hr]
  | some r =>
      have heffect := recoveryStep_effect event (w.providerLeases, r)
      refine (onRecovery_same hr event).held ⟨setRecovery_current hheld.current hr heffect, ?_⟩
      intro hclosed
      obtain ⟨hclosing, hall⟩ := hheld.closed hclosed
      exact ⟨hclosing, setRecovery_terminal hr heffect hall⟩

/-- Between steps only an open runtime has a recovery that has not ended. -/
theorem Held.closing_of_recovery {w : InvestmentRuntime ι} (hheld : Held options w)
    (hinv : w.work.Inv) {index : Nat} (r : ManualRecovery) (hr : w.recoveries[index]? = some r)
    (hopen : r.terminal = false) : w.work.closing = none := by
  apply closing_of_open hinv
  by_contra hclosed
  rw [(hheld.closed (eq_true_of_ne_false hclosed)).2 index r hr] at hopen
  cases hopen

/-! ## Calls -/

/-- A caller that is not refused finds the runtime open and no collection
running. -/
theorem not_refused {caller : Caller} {w : InvestmentRuntime ι}
    (h : refusesRun options caller w = false) : w.work.closed = false ∧ w.work.running = none := by
  unfold refusesRun at h
  rw [Bool.or_eq_false_iff, Bool.or_eq_false_iff, Bool.or_eq_false_iff, Bool.or_eq_false_iff,
    Option.isSome_eq_false_iff, Option.isNone_iff_eq_none] at h
  exact h.1.1.1

/-- A reserved collection waits for the renewal that is going on. -/
theorem phase?_reserve (work : RuntimeWork ι) (caller : Caller) :
    (work.reserve caller).phase? work.collections.length = some (.reserved work.maintaining) := by
  refine RuntimeWork.phase?_eq_some.mpr ⟨_, List.getElem?_concat_length, rfl⟩

/-- `runNow` of a caller that is not the schedule. -/
theorem steps_runNow {w : InvestmentRuntime ι} (hinv : w.work.Inv) {caller : Caller}
    (hcaller : ∀ k, caller ≠ .scheduled k) (now : Instant) :
    Steps options w (runNow options caller now w) := by
  unfold runNow
  cases hrefused : refusesRun options caller w with
  | true =>
      rw [if_pos rfl]
      exact .refl w
  | false =>
      rw [if_neg Bool.false_ne_true]
      obtain ⟨hclosed, hidle⟩ := not_refused hrefused
      have hreserved : Steps options w (w.update (·.reserve caller)) :=
        .single (.reserves caller hclosed hidle hcaller) ⟨rfl, rfl, rfl, rfl, rfl⟩
      exact hreserved.trans (steps_startReserved (hreserved.inv hinv) (phase?_reserve w.work caller) now)

/-- An occurrence is over once its collection has been read. -/
theorem steps_over {w : InvestmentRuntime ι} {k : Nat}
    (hphase : ∀ o collection, w.work.occurrences[k]? = some o → o.phase = .awaiting collection →
      (w.work.awaited collection).isSome) : Steps options w (w.update (·.occurrenceOver k)) :=
  .single (.over k w.work.scheduledCollection hphase) ⟨rfl, rfl, rfl, rfl, rfl⟩

/-- A finished occurrence arms the next one. -/
theorem steps_finishOccurrence {w : InvestmentRuntime ι} {k : Nat}
    (hphase : ∀ o collection, w.work.occurrences[k]? = some o → o.phase = .awaiting collection →
      (w.work.awaited collection).isSome) : Steps options w (w.update (·.finishOccurrence k)) :=
  .single (.over k none hphase) ⟨rfl, rfl, rfl, rfl, rfl⟩

/-- One attempt of a due occurrence. -/
theorem steps_attemptScheduledCollection {w : InvestmentRuntime ι} (hinv : w.work.Inv) {k : Nat}
    {o : Occurrence} (ho : w.work.occurrences[k]? = some o) (hdue : o.phase = .due) (now : Instant) :
    Steps options w (attemptScheduledCollection options k now w) := by
  have hphase : ∀ o collection, w.work.occurrences[k]? = some o → o.phase = .awaiting collection →
      (w.work.awaited collection).isSome := by
    intro o' collection ho' hawaiting
    obtain rfl := Option.some.inj (ho.symm.trans ho')
    rw [hdue] at hawaiting
    cases hawaiting
  unfold attemptScheduledCollection
  rw [ho]
  dsimp only
  by_cases hcurrent : (!isCurrent k o w) = true
  · rw [if_pos hcurrent]
    exact steps_over hphase
  rw [if_neg hcurrent]
  by_cases htime : o.deadline < now
  · rw [if_pos htime]
    exact steps_finishOccurrence hphase
  rw [if_neg htime]
  cases hrefused : refusesRun options (.scheduled k) w with
  | true =>
      rw [if_pos rfl]
      exact .single (.attemptRefused k now o ho hdue (not_lt.mp htime)) ⟨rfl, rfl, rfl, rfl, rfl⟩
  | false =>
      rw [if_neg Bool.false_ne_true]
      obtain ⟨hclosed, hidle⟩ := not_refused hrefused
      have hreserved : Steps options w (w.update fun work =>
          (work.reserve (.scheduled k)).attempts k now (some w.work.collections.length)) :=
        .single (.attemptReserves k now o hclosed hidle ho hdue (not_lt.mp htime))
          ⟨rfl, rfl, rfl, rfl, rfl⟩
      exact hreserved.trans (steps_startReserved (hreserved.inv hinv)
        (phase?_reserve w.work (.scheduled k)) now)

/-- The timer of the schedule fires. -/
theorem steps_runScheduledCollection {w : InvestmentRuntime ι} (hinv : w.work.Inv) (now : Instant) :
    Steps options w (runScheduledCollection options now w) := by
  unfold runScheduledCollection
  split_ifs
  · exact .refl w
  · have hoccurs : Steps options w (w.update (·.occurs (now + retryWindow))) :=
      .single (.occurs _) ⟨rfl, rfl, rfl, rfl, rfl⟩
    exact hoccurs.trans (steps_attemptScheduledCollection (hoccurs.inv hinv)
      List.getElem?_concat_length rfl now)

/-- The occurrence goes on when the collection it waits for is over. -/
theorem steps_attemptReturns (k : Nat) (now : Instant) (w : InvestmentRuntime ι) :
    Steps options w (attemptReturns k now w) := by
  unfold attemptReturns
  cases ho : w.work.occurrences[k]? with
  | none => exact .refl w
  | some o =>
      dsimp only
      cases hphase : o.phase with
      | due => exact .refl w
      | «over» => exact .refl w
      | awaiting collection =>
          dsimp only
          cases hawaited : w.work.awaited collection with
          | none => exact .refl w
          | some result =>
              have hdone : ∀ o' other, w.work.occurrences[k]? = some o' → o'.phase = .awaiting other →
                  (w.work.awaited other).isSome := by
                intro o' other ho' hother
                obtain rfl := Option.some.inj (ho.symm.trans ho')
                rw [hphase] at hother
                cases hother
                rw [hawaited]
                rfl
              cases result with
              | error e =>
                  dsimp only
                  split_ifs
                  · exact steps_finishOccurrence hdone
                  · exact steps_over hdone
              | ok status =>
                  dsimp only
                  split_ifs with hcurrent hgenuine hlate
                  · exact steps_over hdone
                  · exact steps_finishOccurrence hdone
                  · exact steps_finishOccurrence hdone
                  · have hbusy : status = some .skipped ∨ status = none := by
                      by_contra hnot
                      exact hgenuine (not_or.mp hnot)
                    exact .single (.retries k o collection status ho hphase hawaited hbusy)
                      ⟨rfl, rfl, rfl, rfl, rfl⟩

/-! ## Renewals -/

/-- A renewal that is going on may settle. -/
theorem steps_settleRenewal {w : InvestmentRuntime ι} {m : Nat} (hm : w.work.isRenewing m = true)
    (result : Option ClalSessionState) : Steps options w (settleRenewal m result w) :=
  .single (.renewed m result hm) ⟨rfl, rfl, rfl, rfl, rfl⟩

/-- The session is stored, and the renewal settles or goes its other way. -/
theorem steps_storeSession {w : InvestmentRuntime ι} {m : Nat} (hm : w.work.isRenewing m = true)
    (hclosing : w.work.closing = none) (state : ClalSessionState)
    {onError : InvestmentRuntime ι → InvestmentRuntime ι}
    (hError : ∀ w : InvestmentRuntime ι, w.work.isRenewing m = true → w.work.closing = none →
      Steps options w (onError w)) : Steps options w (storeSession m state onError w) := by
  have hwrite := @steps_write ι options _ (.setSessionState state) (setSessionState state) w hclosing
  unfold storeSession
  rcases hresult : w.write (.setSessionState state) (setSessionState state) with ⟨result, w₁⟩
  rw [hresult] at hwrite
  have hm₁ : w₁.work.isRenewing m = true := by
    rw [show w₁ = (w.write _ _).2 from (congrArg Prod.snd hresult).symm]
    exact hm
  have hclosing₁ : w₁.work.closing = none := hwrite.same.closing.trans hclosing
  cases result with
  | error e => exact hwrite.trans (hError w₁ hm₁ hclosing₁)
  | ok u =>
      dsimp only
      have hread := @steps_read ι options _ _ getSessionState w₁
      rcases hsession : w₁.read getSessionState with ⟨session, w₂⟩
      rw [hsession] at hread
      have hm₂ : w₂.work.isRenewing m = true := by
        rw [show w₂ = (w₁.read _).2 from (congrArg Prod.snd hsession).symm]
        exact hm₁
      cases session with
      | error e => exact hwrite.trans (hread.trans (hError w₂ hm₂ (hread.same.closing.trans hclosing₁)))
      | ok state => exact hwrite.trans (hread.trans (steps_settleRenewal hm₂ _))

/-- A renewal that fails says so in the session, if it can. -/
theorem steps_renewalFailed {w : InvestmentRuntime ι} {m : Nat} (hm : w.work.isRenewing m = true)
    (hclosing : w.work.closing = none) (checkedAt : Instant) (errorCode : InvestmentErrorCode) :
    Steps options w (renewalFailed m checkedAt errorCode w) := by
  have hread := @steps_read ι options _ _ getSessionState w
  unfold renewalFailed
  rcases hsession : w.read getSessionState with ⟨session, w₁⟩
  rw [hsession] at hread
  have hm₁ : w₁.work.isRenewing m = true := by
    rw [show w₁ = (w.read _).2 from (congrArg Prod.snd hsession).symm]
    exact hm
  cases session with
  | error e => exact hread.trans (steps_settleRenewal hm₁ none)
  | ok previous =>
      exact hread.trans (steps_storeSession hm₁ (hread.same.closing.trans hclosing) _
        fun w hm _ => steps_settleRenewal hm none)

/-- A renewal starts only where none and no collection is running. -/
theorem steps_maintainSession {w : InvestmentRuntime ι} (hinv : w.work.Inv) (scheduled : Bool)
    (now : Instant) : Steps options w (maintainSession options scheduled now w) := by
  unfold maintainSession
  split_ifs with hrefused
  · exact .refl w
  rw [Bool.not_eq_true, Bool.or_eq_false_iff, Bool.or_eq_false_iff, Bool.or_eq_false_iff,
    Bool.or_eq_false_iff, Option.isSome_eq_false_iff, Option.isSome_eq_false_iff,
    Option.isNone_iff_eq_none, Option.isNone_iff_eq_none] at hrefused
  obtain ⟨⟨⟨⟨hclosed, hidle⟩, hnone⟩, -⟩, -⟩ := hrefused
  have hstart : Steps options w (w.update (·.startRenewal now)) :=
    .single (.renews now hidle hnone hclosed) ⟨rfl, rfl, rfl, rfl, rfl⟩
  have hread := @steps_read ι options _ _ getSessionState (w.update (·.startRenewal now))
  dsimp only
  rcases hsession : (w.update (·.startRenewal now)).read getSessionState with ⟨session, w₁⟩
  rw [hsession] at hread
  have hm : w₁.work.isRenewing w.work.renewals.length = true := by
    rw [show w₁ = ((w.update (·.startRenewal now)).read _).2 from (congrArg Prod.snd hsession).symm]
    exact RuntimeWork.isRenewing_iff.mpr ⟨_, List.getElem?_concat_length, rfl⟩
  have hgoes := hstart.trans hread
  cases session with
  | error e =>
      exact hgoes.trans (steps_renewalFailed hm
        (hgoes.same.closing.trans (closing_of_open hinv hclosed)) now _)
  | ok previous =>
      dsimp only
      split_ifs
      · exact hgoes.trans (steps_settleRenewal hm _)
      · exact hgoes

/-- What the collector's renewal comes to. -/
theorem steps_renewalSettles {w : InvestmentRuntime ι} (hinv : w.work.Inv) (m : Nat)
    (outcome : RenewalOutcome) : Steps options w (renewalSettles m outcome w) := by
  unfold renewalSettles
  cases hr : w.work.renewals[m]? with
  | none => exact .refl w
  | some r =>
      dsimp only
      by_cases hphase : r.phase ≠ .renewing
      · rw [if_pos hphase]
        exact .refl w
      rw [if_neg hphase]
      have hm : w.work.isRenewing m = true :=
        RuntimeWork.isRenewing_iff.mpr ⟨r, hr, not_not.mp hphase⟩
      by_cases hstopped : (r.aborted || w.work.closed) = true
      · rw [if_pos hstopped]
        exact steps_settleRenewal hm none
      rw [if_neg hstopped]
      rw [Bool.not_eq_true, Bool.or_eq_false_iff] at hstopped
      have hclosing := closing_of_open hinv hstopped.2
      cases outcome with
      | failed error =>
          cases error with
          | profileBusy => exact steps_settleRenewal hm none
          | collection errorCode => exact steps_renewalFailed hm hclosing _ _
          | other => exact steps_renewalFailed hm hclosing _ _
      | remaining seconds =>
          dsimp only
          split_ifs
          · exact steps_renewalFailed hm hclosing _ _
          · cases isoString? (r.checkedAt + seconds.num * 1000) with
            | none => exact steps_renewalFailed hm hclosing _ _
            | some expiresAt =>
                exact steps_storeSession hm hclosing _ fun w hm hclosing =>
                  steps_renewalFailed hm hclosing _ _

/-- A renewal that has settled is taken off. -/
theorem steps_renewalReturns (m : Nat) (w : InvestmentRuntime ι) :
    Steps options w (renewalReturns m w) := by
  unfold renewalReturns
  cases hr : w.work.renewals[m]? with
  | none => exact .refl w
  | some r =>
      dsimp only
      cases hphase : r.phase with
      | renewing => exact .refl w
      | returned => exact .refl w
      | settled result =>
          exact .single (.renewalReturns m r hr (by rw [hphase]; exact ⟨nofun, nofun⟩))
            ⟨rfl, rfl, rfl, rfl, rfl⟩

/-! ## One step -/

/-- What a step keeps, and what it is made of. -/
structure Progress (options : RuntimeOptions ι) (w w' : InvestmentRuntime ι) : Prop where
  work : WorkSteps options w.work w'.work
  held : Held options w'

/-- Steps that leave the leases alone are progress. -/
theorem Steps.progress {w w' : InvestmentRuntime ι} (h : Steps options w w')
    (hheld : Held options w) : Progress options w w' := ⟨h.work, h.same.held hheld⟩

/-- Steps, and then progress. -/
theorem Progress.of_steps {a b c : InvestmentRuntime ι} (hab : Steps options a b)
    (hbc : Progress options b c) : Progress options a c := ⟨hab.work.trans hbc.work, hbc.held⟩

/-- Progress, and then steps. -/
theorem Progress.then {a b c : InvestmentRuntime ι} (hab : Progress options a b)
    (hbc : Steps options b c) : Progress options a c :=
  ⟨hab.work.trans hbc.work, hbc.same.held hab.held⟩

/-- Progress keeps the invariant of the work. -/
theorem Progress.inv {w w' : InvestmentRuntime ι} (h : Progress options w w')
    (hinv : w.work.Inv) : w'.work.Inv := (hinv.steps h.work).1

/-- An event of a recovery is progress. -/
theorem onRecovery_progress {w : InvestmentRuntime ι} (hinv : w.work.Inv) (hheld : Held options w)
    (index : Nat) (event : RecoveryEvent) : Progress options w (onRecovery options index event w) :=
  ⟨onRecovery_steps event (hheld.closing_of_recovery hinv), onRecovery_held hheld index event⟩

/-- Aborting asks a collection to stop; it does not move it. -/
theorem phase?_abortCollection (work : RuntimeWork ι) (n : Nat) :
    work.abortCollection.phase? n = work.phase? n := by
  unfold RuntimeWork.abortCollection RuntimeWork.phase?
  cases work.collectionController with
  | none => rfl
  | some i =>
      dsimp only [Option.elim]
      rw [List.getElem?_modify, Option.map_eq_map, Option.map_map]
      refine congrArg (Option.map · _) (funext fun c => ?_)
      dsimp only [Function.comp]
      split_ifs <;> rfl

/-- A recovery does not settle or end a collection. -/
theorem phase?_onRecovery (w : InvestmentRuntime ι) (index : Nat) (event : RecoveryEvent) (n : Nat) :
    (onRecovery options index event w).work.phase? n = w.work.phase? n := by
  cases hr : w.recoveries[index]? with
  | none => rw [onRecovery_none hr]
  | some r =>
      unfold onRecovery
      rw [hr]
      have hpersist : ∀ status (w : InvestmentRuntime ι),
          (persist options status w).work.phase? n = w.work.phase? n := by
        intro status w
        unfold persist
        cases status.stored <;> rfl
      dsimp only
      split_ifs
      · exact (phase?_abortCollection _ n).trans (hpersist _ _)
      · exact phase?_abortCollection _ n
      · exact hpersist _ _
      · rfl

/-- A collection that returns is progress. -/
theorem collectionReturns_progress {w : InvestmentRuntime ι} (hinv : w.work.Inv)
    (hheld : Held options w) (n : Nat) (now : Instant) :
    Progress options w (collectionReturns options n now w) := by
  unfold collectionReturns
  cases hc : w.work.collections[n]? with
  | none => exact (Steps.refl w).progress hheld
  | some c =>
      dsimp only
      have hphase : w.work.phase? n = some c.phase := RuntimeWork.phase?_eq_some.mpr ⟨c, hc, rfl⟩
      -- the `finally` block ends whatever the recovery has left
      have hends : ∀ {w' : InvestmentRuntime ι} {result : Settlement}, c.phase = .settled result →
          Progress options w w' → w'.work.phase? n = w.work.phase? n →
          Progress options w { w' with
            work := w'.work.returns n result, lastFinishedAt := some now } := by
        intro w' result hsettled hprogress hsame
        have hstep : WorkStep options w'.work (w'.work.returns n result) :=
          .returns n result (hsame.trans (hphase.trans (congrArg some hsettled)))
        exact hprogress.then (.single hstep ⟨rfl, rfl, rfl, rfl, rfl⟩)
      cases hcase : c.phase with
      | reserved m => exact (Steps.refl w).progress hheld
      | collecting p => exact (Steps.refl w).progress hheld
      | returned r => exact (Steps.refl w).progress hheld
      | settled result =>
          cases result with
          | error e => exact hends hcase ((Steps.refl w).progress hheld) rfl
          | ok status =>
              have hlast : Steps options w { w with lastResult := status } :=
                ⟨.refl, rfl, rfl, rfl, rfl, rfl⟩
              dsimp only
              cases c.caller with
              | manual index =>
                  have hfinish := @onRecovery_progress ι options { w with lastResult := status } hinv
                    (hlast.same.held hheld) index (finishedBy status)
                  exact hends hcase (.of_steps hlast hfinish)
                    (phase?_onRecovery { w with lastResult := status } index _ n)
              | runNow => exact hends hcase (hlast.progress hheld) rfl
              | refresh => exact hends hcase (hlast.progress hheld) rfl
              | scheduled k => exact hends hcase (hlast.progress hheld) rfl

/-! ### Stop and close -/

/-- `stop` up to the recovery. -/
def stopping (w : InvestmentRuntime ι) : InvestmentRuntime ι :=
  { w with work := w.work.stopped, task := none, sessionTimer := false }

/-- `stop` cancels the recovery at hand, if there is one. -/
theorem stop_eq (w : InvestmentRuntime ι) : stop options w =
    w.manualRecovery.elim (stopping w) fun index => onRecovery options index .cancel (stopping w) :=
  rfl

/-- The recovery that `stop` cancels may still persist its status. -/
theorem stop_rest {w : InvestmentRuntime ι}
    (hclosing : ∀ (i : Nat) (r : ManualRecovery), w.recoveries[i]? = some r → r.terminal = false →
      w.work.closing = none) : WorkSteps options (stopping w).work (stop options w).work := by
  rw [stop_eq]
  cases w.manualRecovery with
  | none => exact .refl
  | some index => exact onRecovery_steps .cancel (hclosing index)

/-- `stop` is progress. -/
theorem stop_progress {w : InvestmentRuntime ι} (hinv : w.work.Inv) (hheld : Held options w) :
    Progress options w (stop options w) := by
  have hstops : Steps options w (stopping w) := .single .stops ⟨rfl, rfl, rfl, rfl, rfl⟩
  refine ⟨hstops.work.trans (stop_rest fun i => hheld.closing_of_recovery hinv), ?_⟩
  rw [stop_eq]
  cases w.manualRecovery with
  | none => exact hstops.same.held hheld
  | some index => exact onRecovery_held (hstops.same.held hheld) index .cancel

/-- After `stop` every recovery has ended. -/
theorem stop_terminal {w : InvestmentRuntime ι} (hheld : CurrentHolds options w) (i : Nat)
    (r' : ManualRecovery) (hr' : (stop options w).recoveries[i]? = some r') : r'.terminal = true := by
  rw [stop_eq] at hr'
  cases hmanual : w.manualRecovery with
  | none =>
      rw [hmanual] at hr'
      by_contra hopen
      have hcurrent := (hheld i r' hr' (eq_false_of_ne_true hopen)).1
      rw [hmanual] at hcurrent
      cases hcurrent
  | some index =>
      rw [hmanual] at hr'
      change (onRecovery options index .cancel (stopping w)).recoveries[i]? = some r' at hr'
      cases hr : w.recoveries[index]? with
      | none =>
          rw [@onRecovery_none ι options (stopping w) index hr] at hr'
          by_contra hopen
          have hcurrent := (hheld i r' hr' (eq_false_of_ne_true hopen)).1
          rw [hmanual] at hcurrent
          obtain rfl := Option.some.inj hcurrent
          rw [show w.recoveries[index]? = some r' from hr'] at hr
          cases hr
      | some r =>
          rw [(@onRecovery_same ι options (stopping w) index r hr .cancel).recoveries] at hr'
          change (w.recoveries.set index _)[i]? = some r' at hr'
          by_cases hi : index = i
          · subst hi
            rw [List.getElem?_set_self (List.getElem?_eq_some_iff.mp hr).1] at hr'
            obtain rfl := Option.some.inj hr'
            exact cancelRecovery_terminal _
          · rw [List.getElem?_set_ne hi] at hr'
            by_contra hopen
            have hcurrent := (hheld i r' hr' (eq_false_of_ne_true hopen)).1
            rw [hmanual] at hcurrent
            exact hi (Option.some.inj hcurrent)

/-- `start` stops what is going on, and then begins anew. -/
theorem start_rest {w : InvestmentRuntime ι} (hinv : w.work.Inv) (hheld : Held options w)
    (hallowed : (w.work.closed || !options.enabled || !options.storeOpened) = false) (now : Instant) :
    Progress options (stop options w) (start options now w) := by
  have hstop := stop_progress hinv hheld
  have hstays : Progress options (stop options w) (stop options w) := ⟨.refl, hstop.held⟩
  have hmaintains : ∀ w₁ : InvestmentRuntime ι, Progress options (stop options w) w₁ →
      Progress options (stop options w)
        (if (decide (0 < options.sessionKeepAliveMinutes) && options.renews) = true then
          { maintainSession options true now w₁ with sessionTimer := true }
        else w₁) := by
    intro w₁ h
    split_ifs
    · exact (h.then (steps_maintainSession (h.inv (hstop.inv hinv)) true now)).then
        ⟨.refl, rfl, rfl, rfl, rfl, rfl⟩
    · exact h
  unfold start
  rw [hallowed, if_neg Bool.false_ne_true]
  refine hmaintains _ ?_
  split_ifs
  · exact hstays.then ⟨.refl, rfl, rfl, rfl, rfl, rfl⟩
  · exact hstays

/-- `start` is progress. -/
theorem start_progress {w : InvestmentRuntime ι} (hinv : w.work.Inv) (hheld : Held options w)
    (now : Instant) : Progress options w (start options now w) := by
  cases hrefused : (w.work.closed || !options.enabled || !options.storeOpened) with
  | true =>
      unfold start
      rw [hrefused, if_pos rfl]
      exact (Steps.refl w).progress hheld
  | false =>
      have hrest := start_rest hinv hheld hrefused now
      exact ⟨(stop_progress hinv hheld).work.trans hrest.work, hrest.held⟩

/-- The promise of `close` covers what runs at that moment. -/
theorem close_progress {w : InvestmentRuntime ι} (hinv : w.work.Inv) (hheld : Held options w) :
    Progress options w (close options w) := by
  unfold close
  split_ifs with hclosed
  · exact (Steps.refl w).progress hheld
  have hclosing := closing_of_open hinv (eq_false_of_ne_true hclosed)
  let shut : InvestmentRuntime ι := w.update fun work => { work with closed := true }
  have hcurrent : CurrentHolds options shut := hheld.current
  have hshuts : WorkSteps options w.work (stopping shut).work := .single (.shuts hclosing)
  have hsame : (stop options shut).work.closed = true ∧ (stop options shut).work.closing = none := by
    rw [stop_eq]
    cases hmanual : shut.manualRecovery with
    | none => exact ⟨rfl, hclosing⟩
    | some index =>
        cases hr : (stopping shut).recoveries[index]? with
        | none =>
            dsimp only [Option.elim]
            rw [@onRecovery_none ι options (stopping shut) index hr]
            exact ⟨rfl, hclosing⟩
        | some r =>
            have hsame := @onRecovery_same ι options (stopping shut) index r hr .cancel
            exact ⟨hsame.closed, hsame.closing.trans hclosing⟩
  have hsteps := hshuts.trans (@stop_rest ι options shut fun _ _ _ _ => hclosing)
  refine ⟨hsteps.tail (.closes hsame.1 hsame.2), ?_, fun _ => ⟨nofun, stop_terminal hcurrent⟩⟩
  intro i r hr hopen
  rw [stop_terminal hcurrent i r hr] at hopen
  cases hopen

/-- So is the last step of `close`. -/
theorem closeReturns_progress {w : InvestmentRuntime ι} (hinv : w.work.Inv)
    (hheld : Held options w) : Progress options w (closeReturns w) := by
  have hclosed : ∀ {running maintaining} (promise : ClosePromise),
      w.work.closing = some (.waiting running maintaining) →
      Held options (w.update fun work => { work with closing := some promise }) := by
    intro running maintaining promise hclosing
    have hset := hinv.closing (by rw [hclosing]; exact nofun)
    exact ⟨hheld.current, fun _ => ⟨nofun, (hheld.closed hset).2⟩⟩
  unfold closeReturns
  cases hclosing : w.work.closing with
  | none => exact (Steps.refl w).progress hheld
  | some promise =>
      cases promise with
      | resolved => exact (Steps.refl w).progress hheld
      | rejected => exact (Steps.refl w).progress hheld
      | waiting running maintaining =>
          dsimp only
          cases hresult : w.work.runningResult running with
          | none => exact (Steps.refl w).progress hheld
          | some result =>
              cases result with
              | error e => exact ⟨.single (.closeRejects running maintaining hclosing), hclosed _ hclosing⟩
              | ok status =>
                  dsimp only
                  split_ifs with hdone
                  · exact ⟨.single (.closeResolves running maintaining status hclosing hresult hdone),
                      hclosed _ hclosing⟩
                  · exact (Steps.refl w).progress hheld

/-! ### Control -/

/-- A refresh that the control router asks for is progress. -/
theorem controlRefresh_progress {w : InvestmentRuntime ι} (hinv : w.work.Inv)
    (hheld : Held options w) (requestedProvider : String) (now : Instant) :
    Progress options w (controlRefresh options requestedProvider now w).1 := by
  unfold controlRefresh
  by_cases hrefused : (w.work.closed || !options.enabled || !options.storeOpened ||
      options.collect.isNone) = true
  · rw [if_pos hrefused]
    exact (Steps.refl w).progress hheld
  rw [if_neg hrefused]
  rw [Bool.not_eq_true, Bool.or_eq_false_iff, Bool.or_eq_false_iff, Bool.or_eq_false_iff] at hrefused
  have hread := @steps_read ι options _ _
    (getFeed options.host options.provider now options.staleHours) w
  rcases hfeed : w.read (getFeed options.host options.provider now options.staleHours) with
    ⟨feed, w₁⟩
  rw [hfeed] at hread
  cases feed with
  | error e => exact hread.progress hheld
  | ok feed =>
      dsimp only
      split_ifs
      · exact hread.progress hheld
      · exact hread.progress hheld
      have hclosing := hread.same.closing.trans (closing_of_open hinv hrefused.1.1.1)
      have hwrite := @steps_write ι options _ (.consumeControlRefreshAttempt (toIsoString now))
        (consumeControlRefreshAttempt (toIsoString now)) w₁ hclosing
      rcases hallowance : w₁.write (.consumeControlRefreshAttempt (toIsoString now))
        (consumeControlRefreshAttempt (toIsoString now)) with ⟨allowance, w₂⟩
      rw [hallowance] at hwrite
      have hpaid := hread.trans hwrite
      cases allowance with
      | error e => exact hpaid.progress hheld
      | ok allowance =>
          dsimp only
          split_ifs
          · exact hpaid.progress hheld
          · have hrun := @steps_runNow ι options w₂ (hpaid.inv hinv) .refresh (fun _ => nofun) now
            exact (hpaid.trans hrun).progress hheld

/-- A recovery is created only while nobody holds the provider, so any other has
ended. -/
theorem startReservedRecovery_progress {w : InvestmentRuntime ι} (hinv : w.work.Inv)
    (hheld : Held options w) (hclosed : w.work.closed = false) (requestId : String) (now : Instant) :
    Progress options w (startReservedRecovery options requestId now w).1 := by
  unfold startReservedRecovery createManualRecovery
  by_cases hmem : options.provider.text ∈ w.providerLeases
  · rw [if_pos hmem]
    exact (Steps.refl w).progress hheld
  rw [if_neg hmem]
  dsimp only
  let created : InvestmentRuntime ι := { w with
    providerLeases := insert options.provider.text w.providerLeases
    recoveries := w.recoveries ++ [{
      provider := options.provider.text
      current := ⟨requestId, .starting, some (now + challengeLifetimeMilliseconds), none⟩ }]
    manualRecovery := some w.recoveries.length }
  have hcreated : Held options created := by
    constructor
    · intro i r hr hopen
      rcases getElem?_concat_some hr with hr | ⟨rfl, rfl⟩
      · exact absurd (hheld.current i r hr hopen).2.2 hmem
      · exact ⟨rfl, rfl, Finset.mem_insert_self _ _⟩
    · intro hcontra
      rw [show w.work.closed = true from hcontra] at hclosed
      cases hclosed
  have hrun := @steps_runNow ι options created hinv (.manual w.recoveries.length) (fun _ => nofun) now
  exact ⟨hrun.work, hrun.same.held hcreated⟩

/-- So is a recovery that it starts. -/
theorem controlStartRecovery_progress {w : InvestmentRuntime ι} (hinv : w.work.Inv)
    (hheld : Held options w) (requestedProvider requestId : String) (now : Instant) :
    Progress options w (controlStartRecovery options requestedProvider requestId now w).1 := by
  unfold controlStartRecovery
  cases havailable : recoveryAvailability options requestedProvider w with
  | some answer => exact (Steps.refl w).progress hheld
  | none =>
      have hclosed : w.work.closed = false := by
        unfold recoveryAvailability at havailable
        by_contra hset
        rw [eq_true_of_ne_false hset] at havailable
        cases havailable
      dsimp only
      cases w.currentRecovery.filter fun r => r.status.challengeId = requestId with
      | some r => exact (Steps.refl w).progress hheld
      | none =>
          have hread := @steps_read ι options _ _ (getManualRecoveryRequest options.host requestId) w
          dsimp only
          rcases hprevious : w.read (getManualRecoveryRequest options.host requestId) with ⟨previous, w₁⟩
          rw [hprevious] at hread
          cases previous with
          | error e => exact hread.progress hheld
          | ok previous =>
              cases previous with
              | some previous => exact hread.progress hheld
              | none =>
                  dsimp only
                  split_ifs
                  · exact hread.progress hheld
                  have hclosing := hread.same.closing.trans (closing_of_open hinv hclosed)
                  have hwrite := @steps_write ι options _
                    (.consumeControlRefreshAttempt (toIsoString now))
                    (consumeControlRefreshAttempt (toIsoString now)) w₁ hclosing
                  rcases hallowance : w₁.write (.consumeControlRefreshAttempt (toIsoString now))
                    (consumeControlRefreshAttempt (toIsoString now)) with ⟨allowance, w₂⟩
                  rw [hallowance] at hwrite
                  have hpaid := hread.trans hwrite
                  cases allowance with
                  | error e => exact hpaid.progress hheld
                  | ok allowance =>
                      dsimp only
                      split_ifs
                      · exact hpaid.progress hheld
                      have hreserve := @steps_write ι options _
                        (.reserveManualRecoveryRequest requestId (toIsoString now))
                        (reserveManualRecoveryRequest options.host requestId (toIsoString now)) w₂
                        (hwrite.same.closing.trans hclosing)
                      rcases hreservation : w₂.write
                        (.reserveManualRecoveryRequest requestId (toIsoString now))
                        (reserveManualRecoveryRequest options.host requestId (toIsoString now)) with
                        ⟨reservation, w₃⟩
                      rw [hreservation] at hreserve
                      have hreserved := hpaid.trans hreserve
                      cases reservation with
                      | error e => exact hreserved.progress hheld
                      | ok reservation =>
                          obtain ⟨created, recovery⟩ := reservation
                          dsimp only
                          split_ifs
                          · exact hreserved.progress hheld
                          · exact .of_steps hreserved (startReservedRecovery_progress
                              (hreserved.inv hinv) (hreserved.same.held hheld)
                              (hreserved.same.closed.trans hclosed) requestId now)

/-- So is a code or a cancellation that it passes on. -/
theorem controlRecoveryAction_progress {w : InvestmentRuntime ι} (hinv : w.work.Inv)
    (hheld : Held options w) (requestedProvider requestId : String) (code : Option String)
    (now : Instant) :
    Progress options w (controlRecoveryAction options requestedProvider requestId code now w).1 := by
  have hread := @steps_read ι options _ _ (getManualRecoveryRequest options.host requestId) w
  unfold controlRecoveryAction
  cases recoveryAvailability options requestedProvider w with
  | some answer => exact (Steps.refl w).progress hheld
  | none =>
      dsimp only
      split
      · exact onRecovery_progress hinv hheld _ _
      · rcases hprevious : w.read (getManualRecoveryRequest options.host requestId) with ⟨previous, w₁⟩
        rw [hprevious] at hread
        cases previous with
        | error e => exact hread.progress hheld
        | ok previous => cases previous <;> exact hread.progress hheld

/-- Another runtime of the process takes or returns a lease of its own. -/
theorem leaseElsewhere_held {w : InvestmentRuntime ι} (hheld : Held options w) (provider : String)
    (held : Bool) (now : Instant) :
    Held options (runtimeAct options (.leaseElsewhere provider held) now w) := by
  unfold runtimeAct
  dsimp only
  cases held with
  | true =>
      refine ⟨fun i r hr hopen => ?_, hheld.closed⟩
      obtain ⟨hcurrent, hprovider, hmem⟩ := hheld.current i r hr hopen
      exact ⟨hcurrent, hprovider, Finset.mem_insert_of_mem hmem⟩
  | false =>
      rw [if_neg Bool.false_ne_true]
      split_ifs with hours
      · exact hheld
      · refine ⟨fun i r hr hopen => ?_, hheld.closed⟩
        obtain ⟨hcurrent, hprovider, hmem⟩ := hheld.current i r hr hopen
        refine ⟨hcurrent, hprovider, Finset.mem_erase.mpr ⟨?_, hmem⟩⟩
        rintro rfl
        refine hours (List.any_eq_true.mpr ⟨r, List.mem_of_getElem? hr, ?_⟩)
        rw [hprovider, hopen, decide_eq_true rfl]
        rfl

/-! ### Any act -/

/-- **Every act of the runtime is progress.** -/
theorem runtimeAct_progress {w : InvestmentRuntime ι} (hinv : w.work.Inv) (hheld : Held options w)
    (act : RuntimeAct ι) (now : Instant) : Progress options w (runtimeAct options act now w) := by
  have hstays := (@Steps.refl ι options w).progress hheld
  cases act with
  | runNow => exact (@steps_runNow ι options w hinv .runNow (fun _ => nofun) now).progress hheld
  | maintainSessionNow => exact (steps_maintainSession hinv false now).progress hheld
  | start => exact start_progress hinv hheld now
  | stop => exact stop_progress hinv hheld
  | close => exact close_progress hinv hheld
  | controlRefresh requestedProvider => exact controlRefresh_progress hinv hheld _ now
  | controlStartRecovery requestedProvider requestId =>
      exact controlStartRecovery_progress hinv hheld _ _ now
  | controlRecoveryAction requestedProvider requestId code =>
      exact controlRecoveryAction_progress hinv hheld _ _ _ now
  | cron =>
      unfold runtimeAct
      dsimp only
      split_ifs
      · exact (steps_runScheduledCollection hinv now).progress hheld
      · exact hstays
  | sessionTick =>
      unfold runtimeAct
      dsimp only
      split_ifs
      · exact (steps_maintainSession hinv true now).progress hheld
      · exact hstays
  | retry k =>
      unfold runtimeAct
      dsimp only
      split_ifs with hdue
      · obtain ⟨o, ho, hphase⟩ := (Option.any_eq_true _ _).mp hdue
        exact (steps_attemptScheduledCollection hinv ho (of_decide_eq_true hphase) now).progress hheld
      · exact hstays
  | begins n =>
      unfold runtimeAct
      dsimp only
      split
      · split_ifs with hdone
        · exact (steps_beginCollection hinv ‹_› hdone now).progress hheld
        · exact hstays
      · exact hstays
  | answer n answer =>
      unfold runtimeAct
      dsimp only
      split
      · rename_i next hphase
        have hresumes : Steps options w (w.update (·.setPhase n (.collecting (next answer)))) :=
          steps_setPhase (.resumes n answer next hphase)
        exact (hresumes.trans (steps_runCollector n now (next answer) (hresumes.inv hinv)
          (phase?_setPhase hphase _))).progress hheld
      · exact hstays
  | collectionReturns n => exact collectionReturns_progress hinv hheld n now
  | renewalSettles m outcome => exact (steps_renewalSettles hinv m outcome).progress hheld
  | renewalReturns m => exact (steps_renewalReturns m w).progress hheld
  | attemptReturns k => exact (steps_attemptReturns k now w).progress hheld
  | closeReturns => exact closeReturns_progress hinv hheld
  | recovery index event => exact onRecovery_progress hinv hheld index event
  | leaseElsewhere provider held =>
      refine ⟨?_, leaseElsewhere_held hheld provider held now⟩
      unfold runtimeAct
      dsimp only
      split_ifs <;> exact .refl

/-! ### A stop is final -/

/-- A collection that has not begun, of a generation that is over. -/
def Expired (n : Nat) (work : RuntimeWork ι) : Prop :=
  ∃ c, work.collections[n]? = some c ∧ c.begun = false ∧ c.startedGeneration < work.generation

/-- What has expired stays so. -/
theorem Expired.evolves {n : Nat} {work work' : RuntimeWork ι} (h : Expired n work)
    (hevolves : RuntimeWork.Evolves work work') : Expired n work' := by
  obtain ⟨c, hc, hbegun, hlt⟩ := h
  obtain ⟨c', hc', hbegun', hstarted⟩ := hevolves.unbegun n c hc hbegun hlt
  exact ⟨c', hc', hbegun', hstarted ▸ hlt.trans_le hevolves.generation⟩

/-- `stop` expires a collection that has not begun. -/
theorem stopped_expired {work : RuntimeWork ι} (hinv : work.Inv) {n : Nat} {c : Collection ι}
    (hc : work.collections[n]? = some c) (hbegun : c.begun = false) (closed : Bool) :
    Expired n (RuntimeWork.stopped { work with closed }) := by
  have hle := (hinv.generations n c hc).1
  have hentry : ∃ c', work.abortCollection.collections[n]? = some c' ∧ c'.begun = c.begun ∧
      c'.startedGeneration = c.startedGeneration := by
    unfold RuntimeWork.abortCollection
    cases work.collectionController with
    | none => exact ⟨c, hc, rfl, rfl⟩
    | some i =>
        refine ⟨_, getElem?_modify_of_some _ i hc, ?_⟩
        split_ifs <;> exact ⟨rfl, rfl⟩
  obtain ⟨c', hc', hsame, hstarted⟩ := hentry
  exact ⟨c', hc', hsame.trans hbegun, by rw [hstarted]; exact Nat.lt_succ_of_le hle⟩

/-- The acts that stop the work of the runtime. -/
def StopsWork (options : RuntimeOptions ι) : RuntimeAct ι → Prop
  | .stop | .close => True
  | .start => options.enabled = true ∧ options.storeOpened = true
  | _ => False

/-- Whatever had not begun before a stop belongs to an earlier generation after
it. -/
theorem expired_of_stop {w : InvestmentRuntime ι} (hinv : w.work.Inv) (hheld : Held options w)
    {act : RuntimeAct ι} (hstop : StopsWork options act) (now : Instant) {n : Nat}
    {c : Collection ι} (hc : w.work.collections[n]? = some c) (hbegun : c.begun = false) :
    Expired n (runtimeAct options act now w).work := by
  have hwhole := hinv.steps (runtimeAct_progress hinv hheld act now).work
  cases hclosed : w.work.closed with
  | true =>
      exact Expired.evolves ⟨c, hc, hbegun, (hinv.generations n c hc).2 hclosed⟩ hwhole.2
  | false =>
      have hstopped := stopped_expired hinv hc hbegun w.work.closed
      have hrest := @stop_rest ι options w fun i => hheld.closing_of_recovery hinv
      have hrested := hstopped.evolves ((hinv.stopped w.work.closed id).steps hrest).2
      cases act with
      | stop => exact hrested
      | start =>
          have hallowed : (w.work.closed || !options.enabled || !options.storeOpened) = false := by
            rw [hclosed, hstop.1, hstop.2]
            rfl
          have hinv' := (stop_progress hinv hheld).inv hinv
          exact hrested.evolves (hinv'.steps (start_rest hinv hheld hallowed now).work).2
      | close =>
          have hclosing := closing_of_open hinv hclosed
          have hshut := stopped_expired hinv hc hbegun true
          have hrest := @stop_rest ι options (w.update fun work => { work with closed := true })
            fun _ _ _ _ => hclosing
          have hrested := hshut.evolves ((hinv.stopped true fun _ => rfl).steps hrest).2
          unfold runtimeAct close
          rw [hclosed, if_neg Bool.false_ne_true]
          exact hrested
      | _ => exact hstop.elim

/-! ## The whole runtime -/

/-- The runtime as it is created over a database, with the providers held by
others. -/
def created (db : InvestmentDb) (providerLeases : Finset String) : InvestmentRuntime ι :=
  { session := ⟨db, []⟩, providerLeases }

/-- The collection has been reserved and is not over. -/
def InFlight (w : InvestmentRuntime ι) (n : Nat) : Prop :=
  ∃ phase, w.work.phase? n = some phase ∧ phase.isLive = true

/-- The collection is running its collector. -/
def IsCollecting (w : InvestmentRuntime ι) (n : Nat) : Prop :=
  ∃ program, w.work.phase? n = some (.collecting program)

/-- It was reserved and `collect` has not been called. -/
def Unbegun (w : InvestmentRuntime ι) (n : Nat) : Prop :=
  ∃ c, w.work.collections[n]? = some c ∧ c.begun = false

/-- What holds at any time. -/
structure ExclusionLaw (w : InvestmentRuntime ι) : Prop where
  one_collection : ∀ i j, w.InFlight i → w.InFlight j → i = j
  apart : ∀ n m, w.IsCollecting n → w.work.isRenewing m = false

/-- The invariant gives the law. -/
theorem exclusionLaw_of_inv {w : InvestmentRuntime ι} (hinv : w.work.Inv) : ExclusionLaw w := by
  constructor
  · rintro i j ⟨_, hi, hilive⟩ ⟨_, hj, hjlive⟩
    obtain ⟨c, hc, rfl⟩ := RuntimeWork.phase?_eq_some.mp hi
    obtain ⟨d, hd, rfl⟩ := RuntimeWork.phase?_eq_some.mp hj
    have hrunning := (hinv.running i c hc hilive).symm.trans (hinv.running j d hd hjlive)
    exact Option.some.inj hrunning
  · rintro n m ⟨program, hn⟩
    obtain ⟨c, hc, hphase⟩ := RuntimeWork.phase?_eq_some.mp hn
    exact hinv.collecting n c hc (by rw [hphase]; rfl) m

/-- An event is progress, also when the store refuses statements. -/
theorem runtimeStep_progress {w : InvestmentRuntime ι} (hinv : w.work.Inv) (hheld : Held options w)
    (event : RuntimeEvent ι) : Progress options w (runtimeStep options w event) := by
  have hact := runtimeAct_progress (w := { w with session := ⟨w.session.store, event.faults⟩ }) hinv
    ⟨hheld.current, hheld.closed⟩ event.act event.now
  exact ⟨hact.work, hact.held⟩

/-- The invariants hold in every state of every run, and every run is an
evolution. -/
theorem run_inv {w : InvestmentRuntime ι} (hinv : w.work.Inv) (hheld : Held options w)
    (events : List (RuntimeEvent ι)) :
    (Runs.run (runtimeStep options) w events).work.Inv ∧
      Held options (Runs.run (runtimeStep options) w events) ∧
      RuntimeWork.Evolves w.work (Runs.run (runtimeStep options) w events).work := by
  induction events generalizing w with
  | nil => exact ⟨hinv, hheld, .refl _⟩
  | cons event events ih =>
      have hstep := runtimeStep_progress hinv hheld event
      obtain ⟨hinv', hevolves⟩ := hinv.steps hstep.work
      obtain ⟨hend, hheldEnd, hrest⟩ := ih hinv' hstep.held
      exact ⟨hend, hheldEnd, hevolves.trans hrest⟩

/-- A new runtime holds nothing. -/
theorem created_held (db : InvestmentDb) (providerLeases : Finset String) :
    Held options (created db providerLeases) where
  current := by intro i r hr; cases hr
  closed := by intro h; cases h

end InvestmentRuntime

open InvestmentRuntime in
/-- **Exclusion.**  For every collector, every configuration and every sequence
of steps of the runtime: at most one collection is in flight, and none overlaps
a renewal; a collection that was reserved but had not begun before a stop never
begins; once the runtime has closed, which is so when any promise of `close`
has resolved, only a collector that ignores its aborted signal can still write,
and once the promise that waits for it has resolved nothing is written. -/
theorem investment_runtime_exclusion {ι : Type} (options : RuntimeOptions ι) (db : InvestmentDb)
    (leases : Finset String) (before after : List (RuntimeEvent ι)) :
    let w := Runs.run (runtimeStep options) (created db leases) before
    let w' := Runs.run (runtimeStep options) (created db leases) (before ++ after)
    ExclusionLaw w ∧
      (∀ event rest n, after = event :: rest → StopsWork options event.act → w.Unbegun n →
        w'.Unbegun n) ∧
      (w.work.closed = true → ∃ new, w'.work.writes = w.work.writes ++ new ∧
        ∀ write ∈ new, ∃ n, write.writer = .collector n true) ∧
      (w.work.closing = some .resolved → w'.work.writes = w.work.writes) := by
  intro w w'
  have hw' : w' = Runs.run (runtimeStep options) w after := Runs.run_append _ _ _ _
  obtain ⟨hinv, hheld, -⟩ := @run_inv ι options (created db leases) RuntimeWork.inv_empty
    (created_held db leases) before
  obtain ⟨-, -, hevolves⟩ := run_inv hinv hheld after
  rw [← hw'] at hevolves
  obtain ⟨new, hnew, hclosing, hresolved⟩ := hevolves.writes
  refine ⟨exclusionLaw_of_inv hinv, ?_, ?_, ?_⟩
  · rintro event rest n rfl hstop ⟨c, hc, hbegun⟩
    have hexpired := expired_of_stop
      (w := { w with session := ⟨w.session.store, event.faults⟩ }) hinv
      ⟨hheld.current, hheld.closed⟩ hstop event.now hc hbegun
    have hstep := runtimeStep_progress hinv hheld event
    obtain ⟨-, -, hrest⟩ := run_inv (hstep.inv hinv) hstep.held rest
    obtain ⟨c', hc', hbegun', -⟩ := hexpired.evolves hrest
    rw [hw']
    exact ⟨c', hc', hbegun'⟩
  · exact fun hclosed => ⟨new, hnew, hclosing (hheld.closed hclosed).1⟩
  · intro hdone
    rw [hnew, hresolved hdone, List.append_nil]

open InvestmentRuntime in
/-- A collection that waits for a renewal is refused after a stop. -/
example : (Runs.run (runtimeStep (ι := Unit) {
      host := asciiHost, collect := some fun _ => .await fun _ => .ret .ok, renews := true })
    (created emptyInvestmentDb ∅) [⟨.maintainSessionNow, 0, []⟩, ⟨.runNow, 1, []⟩, ⟨.stop, 2, []⟩,
      ⟨.renewalSettles 0 (.remaining 600), 3, []⟩, ⟨.begins 0, 4, []⟩]).work.collections.map
        (fun c => (c.aborted, c.begun)) = [(true, false)] := by decide +kernel

end SimplefinBridge
