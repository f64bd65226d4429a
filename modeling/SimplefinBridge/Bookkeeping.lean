import Mathlib.Logic.Relation
import SimplefinBridge.Scheduler

/-!
# What the scheduler does to the source states

Parking, backoff, the attempt counter and the scrape window rest on three
things only: the stored state of each company, the journal and the clock
readings taken.  On this bookkeeping a visit makes one of eight moves
(`VisitMove`), whatever the collaborators and the database do, and an
operation is a sequence of moves (`perform_moves`).  Every law about runs is an
invariant of the moves.
-/

namespace SimplefinBridge

open Transactional

/-- What the scheduler keeps of its companies. -/
structure Bookkeeping where
  states : CompanyId → Option SourceState
  journal : List Event
  /-- Clock readings taken. -/
  tick : Nat

/-- The bookkeeping of a scheduler. -/
def bookkeeping (w : SchedulerWorld) : Bookkeeping where
  states := w.session.ledger.sourceStates.find
  journal := w.journal
  tick := w.tick

/-- The bookkeeping after `company` got a new state, events were appended and
the clock was read. -/
def Bookkeeping.after (b : Bookkeeping) (company : CompanyId) (state : Option SourceState)
    (events : List Event) (readings : Nat) : Bookkeeping where
  states := Function.update b.states company state
  journal := b.journal ++ events
  tick := b.tick + readings

/-- Nothing was done. -/
theorem Bookkeeping.after_self (b : Bookkeeping) (company : CompanyId) :
    b.after company (b.states company) [] 0 = b := by
  unfold Bookkeeping.after
  rw [Function.update_eq_self, List.append_nil, Nat.add_zero]

/-- The company has its new state. -/
@[simp] theorem Bookkeeping.after_states_self (b : Bookkeeping) {company : CompanyId}
    {state : Option SourceState} {events : List Event} {readings : Nat} :
    (b.after company state events readings).states company = state :=
  Function.update_self _ _ _

/-- The others have their own. -/
theorem Bookkeeping.after_states_other (b : Bookkeeping) {company other : CompanyId}
    {state : Option SourceState} {events : List Event} {readings : Nat} (h : other ≠ company) :
    (b.after company state events readings).states other = b.states other :=
  Function.update_of_ne h _ _

/-- The events are appended. -/
@[simp] theorem Bookkeeping.after_journal (b : Bookkeeping) {company : CompanyId}
    {state : Option SourceState} {events : List Event} {readings : Nat} :
    (b.after company state events readings).journal = b.journal ++ events :=
  rfl

/-! ## Moves -/

section
variable (host : Host) (config : Config) (clock : Nat → Instant)

/-- A visit whose credentials resolve and whose guard lets it through, leaving
`state`. -/
def Passes (options : RunNowOptions) (behaviour : Behaviour) (company : CompanyId) (tick : Nat)
    (stored : Option SourceState) (fingerprint : String) (state : SourceState) : Prop :=
  behaviour.credentials = some fingerprint ∧
    guard host config (stored.getD (defaultSourceState company)) fingerprint options.force
      (clock (tick + 1)) = (state, none)

/-- What a visit that begins at clock reading `tick` may leave: the company's
state, the events and the number of clock readings.  A visit may end early
when the database refuses a statement. -/
inductive VisitMove (options : RunNowOptions) (behaviour : Behaviour) (company : CompanyId)
    (companyConfig : CompanyConfig) (tick : Nat) (stored : Option SourceState) :
    Option SourceState → List Event → Nat → Prop
  | untouched (readings : Nat) :
      VisitMove options behaviour company companyConfig tick stored stored
        [.visited company] readings
  | unresolved (readings : Nat) (hcredentials : behaviour.credentials = none) :
      VisitMove options behaviour company companyConfig tick stored
        (some { applyFailure company (stored.getD (defaultSourceState company)) .BRIDGE_ERROR
                  credentialMessage (clock (tick + 1)) with lastRunAt := some (clock tick) })
        [.visited company] readings
  | refused (readings : Nat) :
      VisitMove options behaviour company companyConfig tick stored stored
        [.visited company, .guarded company (clock (tick + 1))] readings
  | skipped (readings : Nat) {fingerprint message : String} {state : SourceState}
      (hcredentials : behaviour.credentials = some fingerprint)
      (hguard : guard host config (stored.getD (defaultSourceState company)) fingerprint
        options.force (clock (tick + 1)) = (state, some message)) :
      VisitMove options behaviour company companyConfig tick stored (some state)
        [.visited company, .guarded company (clock (tick + 1))] readings
  | counted (readings : Nat) {fingerprint : String} {state : SourceState}
      (hpass : Passes host config clock options behaviour company tick stored fingerprint state) :
      VisitMove options behaviour company companyConfig tick stored
        (some (countedState state (clock tick)))
        [.visited company, .guarded company (clock (tick + 1))] readings
  | launched (readings : Nat) {fingerprint : String} {state : SourceState} {startDate : JsDate}
      (hpass : Passes host config clock options behaviour company tick stored fingerprint state)
      (hwindow : computeWindowStart host config companyConfig (countedState state (clock tick))
        options (clock tick) = .ok startDate) :
      VisitMove options behaviour company companyConfig tick stored
        (some (countedState state (clock tick)))
        [.visited company, .guarded company (clock (tick + 1)),
          .launched ⟨company, options, stored, fingerprint, clock (tick + 1), startDate⟩]
        readings
  | failed (readings : Nat) {fingerprint : String} {state : SourceState} {startDate : JsDate}
      (hpass : Passes host config clock options behaviour company tick stored fingerprint state)
      (hwindow : computeWindowStart host config companyConfig (countedState state (clock tick))
        options (clock tick) = .ok startDate)
      (errorType : ScrapeErrorType) (message : String) :
      VisitMove options behaviour company companyConfig tick stored
        (some (applyFailure company (countedState state (clock tick)) errorType message
          (clock (tick + 2))))
        [.visited company, .guarded company (clock (tick + 1)),
          .launched ⟨company, options, stored, fingerprint, clock (tick + 1), startDate⟩]
        readings
  | succeeded (readings : Nat) {fingerprint : String} {state : SourceState} {startDate : JsDate}
      (hpass : Passes host config clock options behaviour company tick stored fingerprint state)
      (hwindow : computeWindowStart host config companyConfig (countedState state (clock tick))
        options (clock tick) = .ok startDate)
      (result : SourceFetchResult) (hreadings : 4 ≤ readings) :
      VisitMove options behaviour company companyConfig tick stored
        (some (succeededState (countedState state (clock tick)) result (clock (tick + 3))))
        [.visited company, .guarded company (clock (tick + 1)),
          .launched ⟨company, options, stored, fingerprint, clock (tick + 1), startDate⟩,
          .succeeded ⟨⟨company, options, stored, fingerprint, clock (tick + 1), startDate⟩,
            clock (tick + 3)⟩]
        readings

/-- A move of an operation. -/
inductive Move : Operation → Bookkeeping → Bookkeeping → Prop
  | visit {call : RunCall} {b : Bookkeeping} {company : CompanyId} {companyConfig : CompanyConfig}
      {state : Option SourceState} {events : List Event} {readings : Nat}
      (hcompany : (company, companyConfig) ∈ config.companies)
      (hvisit : VisitMove host config clock call.options (call.behaviours company) company
        companyConfig b.tick (b.states company) state events readings) :
      Move (.run call) b (b.after company state events readings)
  | unpark {company : CompanyId} {faults : List Bool} {b : Bookkeeping} {state : SourceState}
      (hstored : b.states company = some state) :
      Move (.unpark company faults) b
        (b.after company (some (unparkedState state)) [.unparked company] 0)

end

/-- The company an event is about. -/
def Event.company : Event → CompanyId
  | .visited company => company
  | .guarded company _ => company
  | .launched launch => launch.company
  | .succeeded success => success.launch.company
  | .unparked company => company

section
variable {host : Host} {config : Config} {clock : Nat → Instant}

/-- All that a visit writes down is about its company. -/
theorem VisitMove.about {options : RunNowOptions} {behaviour : Behaviour} {company : CompanyId}
    {companyConfig : CompanyConfig} {tick : Nat} {stored state : Option SourceState}
    {events : List Event} {readings : Nat}
    (h : VisitMove host config clock options behaviour company companyConfig tick stored state
      events readings) : ∀ event ∈ events, event.company = company := by
  cases h <;> simp [Event.company]

/-- A move seen from one company: it is about others, a visit, or an
unparking. -/
theorem Move.company_cases {operation : Operation} {b b' : Bookkeeping}
    (h : Move host config clock operation b b') (company : CompanyId) :
    (b'.states company = b.states company ∧
      ∃ events, b'.journal = b.journal ++ events ∧ ∀ event ∈ events, event.company ≠ company) ∨
    (∃ call companyConfig state events readings, operation = .run call ∧
      (company, companyConfig) ∈ config.companies ∧
      VisitMove host config clock call.options (call.behaviours company) company companyConfig
        b.tick (b.states company) state events readings ∧
      b' = b.after company state events readings) ∨
    ∃ faults state, operation = .unpark company faults ∧ b.states company = some state ∧
      b' = b.after company (some (unparkedState state)) [.unparked company] 0 := by
  cases h with
  | @visit call _ visited companyConfig state events readings hcompany hvisit =>
      by_cases hsame : company = visited
      · subst hsame
        exact .inr (.inl ⟨call, companyConfig, state, events, readings, rfl, hcompany, hvisit, rfl⟩)
      · refine .inl ⟨b.after_states_other hsame, events, rfl, ?_⟩
        intro event hevent
        rw [hvisit.about event hevent]
        exact Ne.symm hsame
  | @unpark unparked faults _ state hstored =>
      by_cases hsame : company = unparked
      · subst hsame
        exact .inr (.inr ⟨faults, state, rfl, hstored, rfl⟩)
      · refine .inl ⟨b.after_states_other hsame, [.unparked unparked], rfl, ?_⟩
        intro event hevent
        rw [List.mem_singleton.mp hevent]
        exact Ne.symm hsame

end

/-! ## Statements on the bookkeeping -/

section
variable {b : Bookkeeping} {company : CompanyId} {state : Option SourceState}
  {events : List Event} {readings : Nat} {α β : Type} {Q : β → SchedulerWorld → Prop}
  {E : SchedulerWorld → Prop}

/-- The bookkeeping is `b` after these changes. -/
def At (b : Bookkeeping) (company : CompanyId) (state : Option SourceState) (events : List Event)
    (readings : Nat) (w : SchedulerWorld) : Prop :=
  bookkeeping w = b.after company state events readings

/-- A stored state is an update at its company. -/
theorem find_put_eq_update (states : KeyedTable SourceState SourceState.company)
    {next : SourceState} (hcompany : next.company = company) :
    (states.put next).find = Function.update states.find company (some next) := by
  funext other
  rw [KeyedTable.find_put, hcompany]
  by_cases hother : other = company
  · rw [hother, if_pos rfl, Function.update_self]
  · rw [if_neg hother, Function.update_of_ne hother]

/-- Only the states of the ledger are kept track of. -/
theorem At.of_states {w : SchedulerWorld} {session : Session}
    (h : At b company state events readings w)
    (hstates : session.ledger.sourceStates = w.session.ledger.sourceStates) :
    At b company state events readings { w with session } := by
  unfold At at h ⊢
  rw [← h]
  unfold bookkeeping
  rw [hstates]

/-- The clock is read. -/
theorem ensures_now (clock : Nat → Instant) :
    Ensures (At b company state events readings) (now clock)
      (fun time w => time = clock (b.tick + readings) ∧
        At b company state events (readings + 1) w) E := by
  intro w hw
  have htick : w.tick = b.tick + readings := congrArg Bookkeeping.tick hw
  have hstates := congrArg Bookkeeping.states hw
  have hjournal := congrArg Bookkeeping.journal hw
  refine ⟨congrArg clock htick, ?_⟩
  unfold At bookkeeping Bookkeeping.after
  rw [Bookkeeping.mk.injEq]
  exact ⟨hstates, hjournal, congrArg (· + 1) htick⟩

/-- An event is written down. -/
theorem ensures_emit (event : Event) :
    Ensures (At b company state events readings) (emit event)
      (fun _ => At b company state (events ++ [event]) readings) E := by
  intro w hw
  have htick := congrArg Bookkeeping.tick hw
  have hstates := congrArg Bookkeeping.states hw
  have hjournal : w.journal = b.journal ++ events := congrArg Bookkeeping.journal hw
  change bookkeeping { w with journal := w.journal ++ [event] } = _
  unfold bookkeeping Bookkeeping.after
  rw [Bookkeeping.mk.injEq, hjournal, List.append_assoc]
  exact ⟨hstates, rfl, htick⟩

/-- A thrown error changes nothing. -/
theorem ensures_raise {result : Except BridgeError α}
    (hE : ∀ w, At b company state events readings w → E w) :
    Ensures (At b company state events readings) (raise result)
      (fun a w => result = .ok a ∧ At b company state events readings w) E := by
  intro w hw
  unfold raise
  cases result with
  | ok a => exact ⟨rfl, hw⟩
  | error e => exact hE w hw

/-- A ledger operation that leaves the source states alone. -/
theorem ensures_onLedger {operation : LedgerM α}
    (hframes : Frames (fun ledger => ledger.sourceStates) operation)
    (hE : ∀ w, At b company state events readings w → E w) :
    Ensures (At b company state events readings) (onLedger operation)
      (fun _ => At b company state events readings) E := by
  intro w hw
  have hkept := hframes w.session
  unfold onLedger
  cases hrun : operation w.session with
  | ok a session =>
      rw [hrun] at hkept
      exact hw.of_states hkept
  | error e session =>
      rw [hrun] at hkept
      exact hE _ (hw.of_states hkept)

/-- The same with statements refused. -/
theorem ensures_onLedgerWith {operation : LedgerM α} (faults : List Bool)
    (hframes : Frames (fun ledger => ledger.sourceStates) operation)
    (hE : ∀ w, At b company state events readings w → E w) :
    Ensures (At b company state events readings) (onLedgerWith faults operation)
      (fun _ => At b company state events readings) E := by
  intro w hw
  have hkept := hframes ⟨w.session.ledger, faults⟩
  unfold onLedgerWith
  cases hrun : operation ⟨w.session.ledger, faults⟩ with
  | ok a session =>
      rw [hrun] at hkept
      exact hw.of_states hkept
  | error e session =>
      rw [hrun] at hkept
      exact hE _ (hw.of_states hkept)

/-- The state is read as it stands. -/
theorem ensures_getSourceState (hE : ∀ w, At b company state events readings w → E w) :
    Ensures (At b company state events readings) (onLedger (getSourceState company))
      (fun stored w => stored = state ∧ At b company state events readings w) E := by
  intro w hw
  have hframes := ensures_onLedger (E := E)
    (@frames_query _ _ (fun ledger => ledger.sourceStates)
      fun ledger => ledger.sourceStates.find company) hE w hw
  have hstored : w.session.ledger.sourceStates.find company = state := by
    have hstates := congrFun (congrArg Bookkeeping.states hw) company
    exact hstates.trans (Function.update_self _ _ _)
  unfold getSourceState
  cases hrun : onLedger (query fun ledger => ledger.sourceStates.find company) w with
  | ok stored w' =>
      rw [hrun] at hframes
      refine ⟨?_, hframes⟩
      unfold onLedger at hrun
      cases hquery : query (fun ledger => ledger.sourceStates.find company) w.session with
      | ok a session =>
          rw [hquery] at hrun
          cases hrun
          exact (query_ok hquery).1.trans hstored
      | error e session =>
          rw [hquery] at hrun
          cases hrun
  | error e w' =>
      rw [hrun] at hframes
      exact hframes

/-- The state is written. -/
theorem ensures_upsertSourceState {next : SourceState} (hcompany : next.company = company)
    (hE : ∀ w, At b company state events readings w → E w) :
    Ensures (At b company state events readings) (onLedger (upsertSourceState next))
      (fun _ => At b company (some next) events readings) E := by
  intro w hw
  have htick := congrArg Bookkeeping.tick hw
  have hstates : w.session.ledger.sourceStates.find = Function.update b.states company state :=
    congrArg Bookkeeping.states hw
  have hjournal := congrArg Bookkeeping.journal hw
  have hput : (w.session.ledger.sourceStates.put next).find =
      Function.update b.states company (some next) := by
    rw [find_put_eq_update _ hcompany, hstates, Function.update_idem]
  unfold onLedger upsertSourceState statement
  dsimp only
  by_cases hfault : w.session.faults.headD false
  · rw [if_pos hfault]
    exact hE _ hw
  · rw [if_neg hfault]
    unfold At bookkeeping Bookkeeping.after
    dsimp only
    rw [Bookkeeping.mk.injEq]
    exact ⟨hput, hjournal, htick⟩

/-- Writing the run record reads the clock once more. -/
theorem ensures_record (clock : Nat → Instant) {V : SchedulerWorld → Prop}
    (hV : ∀ more w, readings ≤ more → At b company state events more w → V w) (runId : String)
    (startedAt : Instant) (status : RunStatus) (errorType : Option ScrapeErrorType)
    (message : Option String) (counts : Counts) :
    Ensures (At b company state events readings)
      (record clock company runId startedAt status errorType message counts) (fun _ => V) V := by
  have hlater : ∀ w, At b company state events (readings + 1) w → V w :=
    fun w hw => hV _ w (Nat.le_succ _) hw
  unfold record
  apply Ensures.bind (ensures_now clock)
  intro finishedAt
  apply ensures_of_imp
  intro _
  apply Ensures.bind (ensures_onLedger ?_ hlater)
  · intro _
    exact ensures_pure hlater
  · apply frames_statement
    intro ledger ledger' h
    rw [← Except.ok.inj h]

end

/-! ## A visit is a move -/

section
variable (host : Host) (config : Config) (clock : Nat → Instant) (options : RunNowOptions)
  (behaviour : Behaviour) (company : CompanyId) (companyConfig : CompanyConfig)
  (b : Bookkeeping)

/-- A visit that began with the bookkeeping `b` has made a move. -/
def Visited (w : SchedulerWorld) : Prop :=
  ∃ state events readings,
    VisitMove host config clock options behaviour company companyConfig b.tick (b.states company)
      state events readings ∧
    At b company state events readings w

/-- A point of a visit from which the visit may end. -/
theorem visited_of_move {state : Option SourceState} {events : List Event} {least : Nat}
    (hmove : ∀ readings, least ≤ readings →
      VisitMove host config clock options behaviour company companyConfig b.tick
        (b.states company) state events readings) :
    ∀ readings w, least ≤ readings → At b company state events readings w →
      Visited host config clock options behaviour company companyConfig b w :=
  fun readings _ hreadings hw => ⟨state, events, readings, hmove readings hreadings, hw⟩

/-- The guard leaves the company alone, -/
theorem guard_company {state state' : SourceState} {fingerprint : String} {force : Bool}
    {current : Instant} {skip : Option String}
    (h : guard host config state fingerprint force current = (state', skip)) :
    state'.company = state.company := by
  have hfingerprinted : (fingerprinted state fingerprint).company = state.company := by
    unfold fingerprinted
    split_ifs <;> rfl
  have hrolled : ∀ today, (rolledOver (fingerprinted state fingerprint) today).company =
      state.company := by
    intro today
    unfold rolledOver
    split_ifs
    · exact hfingerprinted
    · exact hfingerprinted
  unfold SimplefinBridge.guard at h
  dsimp only at h
  split_ifs at h <;> cases h
  · exact hfingerprinted
  · exact hfingerprinted
  · exact hrolled _
  · exact hrolled _

/-- and so does a failure. -/
theorem applyFailure_company (state : SourceState) (errorType : ScrapeErrorType)
    (message : String) (current : Instant) :
    (applyFailure company state errorType message current).company = state.company := by
  unfold applyFailure
  dsimp only
  split_ifs <;> rfl

section
variable {host config clock options behaviour company companyConfig b}

/-- After the launch: the result is ingested and the success stored, or the
failure is. -/
private theorem ensures_launched {fingerprint : String} {state : SourceState} {startDate : JsDate}
    (hcompany : state.company = company)
    (hpass : Passes host config clock options behaviour company b.tick (b.states company)
      fingerprint state)
    (hwindow : computeWindowStart host config companyConfig (countedState state (clock b.tick))
      options (clock b.tick) = .ok startDate) :
    Ensures
      (At b company (some (countedState state (clock b.tick)))
        [.visited company, .guarded company (clock (b.tick + 1)),
          .launched ⟨company, options, b.states company, fingerprint,
            clock (b.tick + 1), startDate⟩] 2)
      (match behaviour.outcome with
      | .ok result => finishSuccess host config clock company companyConfig behaviour (clock b.tick)
          ⟨company, options, b.states company, fingerprint, clock (b.tick + 1), startDate⟩
          (countedState state (clock b.tick)) result
      | .failed errorType message => finishFailure clock company behaviour (clock b.tick)
          (countedState state (clock b.tick)) errorType message
      | .threw => finishFailure clock company behaviour (clock b.tick)
          (countedState state (clock b.tick)) .BRIDGE_ERROR bridgeErrorMessage)
      (fun _ => Visited host config clock options behaviour company companyConfig b)
      (Visited host config clock options behaviour company companyConfig b) := by
  have hlaunched := visited_of_move host config clock options behaviour company companyConfig b
    fun readings (_ : 0 ≤ readings) => VisitMove.launched readings hpass hwindow
  have hfailure : ∀ errorType message, Ensures
      (At b company (some (countedState state (clock b.tick)))
        [.visited company, .guarded company (clock (b.tick + 1)),
          .launched ⟨company, options, b.states company, fingerprint,
            clock (b.tick + 1), startDate⟩] 2)
      (finishFailure clock company behaviour (clock b.tick)
          (countedState state (clock b.tick)) errorType message)
      (fun _ => Visited host config clock options behaviour company companyConfig b)
      (Visited host config clock options behaviour company companyConfig b) := by
    intro errorType message
    have hfailed := visited_of_move host config clock options behaviour company companyConfig b
      fun readings (_ : 0 ≤ readings) => VisitMove.failed readings hpass hwindow errorType message
    unfold finishFailure
    apply Ensures.bind (ensures_now clock)
    intro current
    apply ensures_of_imp
    rintro rfl
    apply Ensures.bind (ensures_upsertSourceState ?_ (fun w => hlaunched _ w (Nat.zero_le _)))
    · intro _
      exact ensures_record clock (fun more w _ => hfailed more w (Nat.zero_le _)) _ _ _ _ _ _
    · rw [applyFailure_company]
      exact hcompany
  cases behaviour.outcome with
  | ok result =>
      have hsucceeded := visited_of_move host config clock options behaviour company companyConfig b
        fun readings hreadings => VisitMove.succeeded readings hpass hwindow result hreadings
      unfold finishSuccess
      apply Ensures.bind (ensures_now clock)
      intro ingestedAt
      apply ensures_of_imp
      intro _
      apply Ensures.bind (ensures_onLedgerWith _ ?_ (fun w => hlaunched _ w (Nat.zero_le _)))
      · intro counts
        apply Ensures.bind (ensures_now clock)
        intro completedAt
        apply ensures_of_imp
        rintro rfl
        apply Ensures.bind
          (ensures_upsertSourceState ?_ (fun w => hlaunched _ w (Nat.zero_le _)))
        · intro _
          apply Ensures.bind (ensures_emit _)
          intro _
          exact ensures_record clock hsucceeded _ _ _ _ _ _
        · exact hcompany
      · exact frames_applySuccess host config (fun _ _ _ _ _ _ => rfl) _ _ _ _
  | failed errorType message => exact hfailure errorType message
  | threw => exact hfailure _ _

/-- **A visit is a move**, whatever the collaborators do and whichever
statements the database refuses. -/
theorem runOne_visited (hstored : ∀ stored, b.states company = some stored →
      stored.company = company) :
    Ensures (fun w => bookkeeping w = b)
      (runOne host config clock options behaviour company companyConfig)
      (fun _ => Visited host config clock options behaviour company companyConfig b)
      (Visited host config clock options behaviour company companyConfig b) := by
  have hcompany : ((b.states company).getD (defaultSourceState company)).company = company := by
    cases hstate : b.states company with
    | none => rfl
    | some stored => exact hstored stored hstate
  have hrefused := visited_of_move host config clock options behaviour company companyConfig b
    fun readings (_ : 0 ≤ readings) => VisitMove.refused readings
  have huntouched := visited_of_move host config clock options behaviour company companyConfig b
    fun readings (_ : 0 ≤ readings) => VisitMove.untouched readings
  suffices hrun : Ensures (At b company (b.states company) [] 0)
      (runOne host config clock options behaviour company companyConfig)
      (fun _ => Visited host config clock options behaviour company companyConfig b)
      (Visited host config clock options behaviour company companyConfig b) by
    apply hrun.weaken _ (fun _ _ h => h) (fun _ h => h)
    intro w hw
    unfold At
    rw [Bookkeeping.after_self, hw]
  unfold runOne
  apply Ensures.bind (ensures_emit _)
  intro _
  apply Ensures.bind (ensures_now clock)
  intro startedAt
  apply ensures_of_imp
  rintro rfl
  apply Ensures.bind (ensures_getSourceState (fun w => huntouched _ w (Nat.zero_le _)))
  intro stored
  apply ensures_of_imp
  rintro rfl
  cases hcredentials : behaviour.credentials with
  | none =>
      have hunresolved := visited_of_move host config clock options behaviour company companyConfig b
        fun readings (_ : 0 ≤ readings) => VisitMove.unresolved readings hcredentials
      unfold credentialsFailed
      apply Ensures.bind (ensures_now clock)
      intro current
      apply ensures_of_imp
      rintro rfl
      apply Ensures.bind (ensures_upsertSourceState ?_ (fun w => huntouched _ w (Nat.zero_le _)))
      · intro _
        exact ensures_record clock (fun more w _ => hunresolved more w (Nat.zero_le _)) _ _ _ _ _ _
      · change (applyFailure _ _ _ _ _).company = company
        rw [applyFailure_company]
        exact hcompany
  | some fingerprint =>
      apply Ensures.bind (ensures_now clock)
      intro guardedAt
      apply ensures_of_imp
      rintro rfl
      apply Ensures.bind (ensures_emit _)
      intro _
      cases hguard : SimplefinBridge.guard host config
          ((b.states company).getD (defaultSourceState company)) fingerprint options.force
          (clock (b.tick + 1)) with
      | mk state skip =>
          have hguarded : state.company = company :=
            (guard_company host config hguard).trans hcompany
          cases skip with
          | some message =>
              have hskipped := visited_of_move host config clock options behaviour company
                companyConfig b fun readings (_ : 0 ≤ readings) =>
                  VisitMove.skipped readings hcredentials hguard
              unfold skipRun
              apply Ensures.bind
                (ensures_upsertSourceState hguarded (fun w => hrefused _ w (Nat.zero_le _)))
              intro _
              exact ensures_record clock (fun more w _ => hskipped more w (Nat.zero_le _)) _ _ _ _ _ _
          | none =>
              have hpass : Passes host config clock options behaviour company b.tick
                  (b.states company) fingerprint state := ⟨hcredentials, hguard⟩
              have hcounted := visited_of_move host config clock options behaviour company
                companyConfig b fun readings (_ : 0 ≤ readings) => VisitMove.counted readings hpass
              unfold attemptRun
              apply Ensures.bind
                (ensures_upsertSourceState ?_ (fun w => hrefused _ w (Nat.zero_le _)))
              · intro _
                apply Ensures.bind (ensures_raise (fun w => hcounted _ w (Nat.zero_le _)))
                intro startDate
                apply ensures_of_imp
                intro hwindow
                apply Ensures.bind (ensures_raise (fun w => hcounted _ w (Nat.zero_le _)))
                intro _
                apply ensures_of_imp
                intro _
                apply Ensures.bind (ensures_emit _)
                intro _
                exact ensures_launched hguarded hpass hwindow
              · exact hguarded

end

end

/-! ## An operation is a sequence of moves -/

section
variable (host : Host) (config : Config) (clock : Nat → Instant)

/-- Moves of one operation. -/
abbrev Moves (operation : Operation) : Bookkeeping → Bookkeeping → Prop :=
  Relation.ReflTransGen (Move host config clock operation)

/-- **A visit is one of the listed moves.** -/
theorem runOne_move {call : RunCall} {company : CompanyId} {companyConfig : CompanyConfig}
    (hcompany : (company, companyConfig) ∈ config.companies) (w : SchedulerWorld) :
    Move host config clock (.run call) (bookkeeping w)
      (bookkeeping (storeAfter (runOne host config clock call.options (call.behaviours company)
        company companyConfig w))) := by
  have hstored : ∀ stored, (bookkeeping w).states company = some stored →
      stored.company = company := fun stored h => KeyedTable.key_of_find h
  have hvisited := Ensures.storeAfter (@runOne_visited host config clock call.options
    (call.behaviours company) company companyConfig _ hstored) (s := w) rfl
  obtain ⟨state, events, readings, hmove, hafter⟩ := hvisited
  rw [hafter]
  exact .visit hcompany hmove

/-- Visits one after another. -/
theorem visitCompanies_moves (call : RunCall) (companies : List (CompanyId × CompanyConfig))
    (hcompanies : companies ⊆ config.companies) :
    Keeps (fun w w' => Moves host config clock (.run call) (bookkeeping w) (bookkeeping w'))
      (visitCompanies host config clock call.options call.behaviours companies) := by
  have htrans : ∀ w₁ w₂ w₃ : SchedulerWorld,
      Moves host config clock (.run call) (bookkeeping w₁) (bookkeeping w₂) →
      Moves host config clock (.run call) (bookkeeping w₂) (bookkeeping w₃) →
      Moves host config clock (.run call) (bookkeeping w₁) (bookkeeping w₃) :=
    fun _ _ _ h₁ h₂ => h₁.trans h₂
  apply keeps_foldlM (fun _ => .refl) htrans
  intro records entry hentry
  unfold visitCompany
  split_ifs
  · apply Keeps.bind htrans
    · intro w
      exact .single (runOne_move host config clock (hcompanies hentry) w)
    · exact fun _ => keeps_pure (fun _ => .refl) _
  · exact keeps_pure (fun _ => .refl) _

/-- A run is a list of moves. -/
theorem runNow_moves (call : RunCall) (w : SchedulerWorld) :
    Moves host config clock (.run call) (bookkeeping w)
      (bookkeeping (storeAfter (runNow host config clock call.options call.behaviours w))) := by
  have hvisits := visitCompanies_moves host config clock call config.companies
    (List.Subset.refl _) (setRunning true w)
  unfold runNow
  split_ifs
  · exact .refl
  · exact .refl
  · unfold whileRunning
    cases hrun : visitCompanies host config clock call.options call.behaviours config.companies
        (setRunning true w) with
    | ok records w' =>
        rw [hrun] at hvisits
        exact hvisits
    | error e w' =>
        rw [hrun] at hvisits
        exact hvisits

/-- `unparkCompany` on the tables. -/
theorem ensures_unparkCompany (company : CompanyId) (ledger : Ledger) :
    Ensures (fun s => s.ledger = ledger) (unparkCompany company)
      (fun unparked s => match unparked with
        | true => ∃ state, ledger.sourceStates.find company = some state ∧
            s.ledger = { ledger with sourceStates := ledger.sourceStates.put (unparkedState state) }
        | false => s.ledger = ledger)
      (fun s => s.ledger = ledger) := by
  unfold unparkCompany
  apply Ensures.bind ensures_query
  intro stored
  apply ensures_of_imp
  intro hstored
  cases hfind : stored with
  | none => exact ensures_pure fun _ hs => hs
  | some state =>
      apply Ensures.bind ensures_statement
      intro _
      apply ensures_pure
      intro s hs
      exact ⟨state, hstored.symm.trans hfind, (Except.ok.inj hs).symm⟩

/-- Unparking is one, or none. -/
theorem unparkCompany_moves (company : CompanyId) (faults : List Bool) (w : SchedulerWorld) :
    Moves host config clock (.unpark company faults) (bookkeeping w)
      (bookkeeping (storeAfter (unparkJournaled company w))) := by
  have hspec := ensures_unparkCompany company w.session.ledger w.session rfl
  have hsame : ∀ session : Session, session.ledger = w.session.ledger →
      bookkeeping { w with session } = bookkeeping w := by
    intro session h
    unfold bookkeeping
    rw [h]
  change Moves host config clock (.unpark company faults) (bookkeeping w) (bookkeeping (storeAfter
    (EStateM.bind (onLedger (unparkCompany company)) _ w)))
  unfold EStateM.bind onLedger
  cases hrun : unparkCompany company w.session with
  | ok unparked session =>
      rw [hrun] at hspec
      cases unparked with
      | true =>
          obtain ⟨state, hfind, hledger⟩ := hspec
          have hkey : state.company = company := KeyedTable.key_of_find hfind
          have hafter : bookkeeping { w with session, journal := w.journal ++ [.unparked company] } =
              (bookkeeping w).after company (some (unparkedState state)) [.unparked company] 0 := by
            unfold bookkeeping Bookkeeping.after
            rw [Bookkeeping.mk.injEq, hledger]
            exact ⟨find_put_eq_update _ hkey, rfl, rfl⟩
          change Moves host config clock (.unpark company faults) (bookkeeping w)
            (bookkeeping { w with session, journal := w.journal ++ [.unparked company] })
          rw [hafter]
          exact .single (.unpark hfind)
      | false =>
          change Moves host config clock (.unpark company faults) (bookkeeping w)
            (bookkeeping { w with session })
          rw [hsame session hspec]
  | error e session =>
      rw [hrun] at hspec
      change Moves host config clock (.unpark company faults) (bookkeeping w)
        (bookkeeping { w with session })
      rw [hsame session hspec]

/-- **An operation is a sequence of moves.** -/
theorem perform_moves (w : SchedulerWorld) (operation : Operation) :
    Moves host config clock operation (bookkeeping w)
      (bookkeeping (perform host config clock w operation)) := by
  cases operation with
  | run call =>
      have hmoves := runNow_moves host config clock call
        { w with session := { w.session with faults := call.faults } }
      unfold perform Operation.program
      dsimp only
      rw [storeAfter_discard]
      exact hmoves
  | unpark company faults =>
      exact unparkCompany_moves host config clock company faults
        { w with session := { w.session with faults } }

/-- **Step rule.**  What the moves of an operation keep, the operation keeps. -/
theorem perform_invariant (Inv : Bookkeeping → Prop) (operation : Operation)
    (hmove : ∀ b b', Move host config clock operation b b' → Inv b → Inv b') {w : SchedulerWorld}
    (h : Inv (bookkeeping w)) : Inv (bookkeeping (perform host config clock w operation)) := by
  have hmoves := perform_moves host config clock w operation
  generalize bookkeeping (perform host config clock w operation) = b' at hmoves
  induction hmoves with
  | refl => exact h
  | tail _ hlast ih => exact hmove _ _ hlast ih

/-- **Run rule.**  What every move keeps holds after every run. -/
theorem run_perform_invariant (Inv : Bookkeeping → Prop)
    (hmove : ∀ operation b b', Move host config clock operation b b' → Inv b → Inv b')
    {w : SchedulerWorld} (h : Inv (bookkeeping w)) (operations : List Operation) :
    Inv (bookkeeping (Runs.run (perform host config clock) w operations)) :=
  @Runs.run_invariant _ _ _ (fun w => Inv (bookkeeping w)) _ h
    (fun _ operation hw => perform_invariant host config clock Inv operation (hmove operation) hw) operations

end

end SimplefinBridge
