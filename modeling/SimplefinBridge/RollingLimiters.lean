import SimplefinBridge.InvestmentClock
import SimplefinBridge.InvestmentFrames
import SimplefinBridge.Library.RollingLimits

/-!
# The rolling limiters of the investment store

The store limits the automatic SMS requests of a day and the control refreshes
of a minute.  Both limiters are `RollingLimits.attempt` on the times of the
stored attempts (`consumed_attempt`), and no other operation touches what they
store, so in every run a clock that does not go back lets two attempts into a
window (`limiters_agree`).  What the predictors answer is the oldest stored
attempt plus the window, from which on the limiter allows again.
-/

namespace SimplefinBridge

open Statements Timestamps Transactional CivilDays

/-! ## The two limiters -/

/-- The two limiters of the store. -/
inductive Limiter
  | automaticSms | controlRefresh
  deriving DecidableEq, Repr

namespace Limiter

/-- The time in which a limiter counts. -/
def window : Limiter → Int
  | automaticSms => smsWindow
  | controlRefresh => controlWindow

/-- The attempts that a limiter has stored. -/
def stored : Limiter → InvestmentDb → Option (List String)
  | automaticSms => (·.automaticSmsAttempts)
  | controlRefresh => (·.controlRefreshAttempts)

/-- The database with other attempts of a limiter. -/
def store : Limiter → InvestmentDb → List String → InvestmentDb
  | automaticSms => fun db attempts => { db with automaticSmsAttempts := some attempts }
  | controlRefresh => fun db attempts => { db with controlRefreshAttempts := some attempts }

/-- The operation that asks a limiter for an attempt. -/
def op : Limiter → String → InvestmentOp
  | automaticSms => .consumeAutomaticSmsAttempt
  | controlRefresh => .consumeControlRefreshAttempt

/-- The operation, with its answer whether the attempt is allowed. -/
def consume : Limiter → String → InvestmentM Bool
  | automaticSms, time => consumeAutomaticSmsAttempt time
  | controlRefresh, time => do return (← consumeControlRefreshAttempt time).allowed

/-- The text of the attempt that the operation makes. -/
def attempted : Limiter → InvestmentOp → Option String
  | automaticSms, .consumeAutomaticSmsAttempt time => some time
  | controlRefresh, .consumeControlRefreshAttempt time => some time
  | _, _ => none

/-- The stored attempts, as instants. -/
def times (limiter : Limiter) (db : InvestmentDb) : List Instant :=
  ((limiter.stored db).getD []).filterMap dateParse

end Limiter

/-- What was stored is read back. -/
theorem Limiter.stored_store (limiter : Limiter) (db : InvestmentDb) (attempts : List String) :
    limiter.stored (limiter.store db attempts) = some attempts := by
  cases limiter with
  | _ => rfl

/-- At most two attempts are stored, and the schema accepts them. -/
structure WellStored (limiter : Limiter) (db : InvestmentDb) : Prop where
  length : ((limiter.stored db).getD []).length ≤ 2
  accepted : ∀ time ∈ (limiter.stored db).getD [], isTimestamp time = true

/-! ## What an attempt does -/

section
variable {limiter : Limiter} {db : InvestmentDb} {time : String} {instant : Instant}

/-- At most two good attempts are read as they are. -/
theorem parseAttempts_ok {attempts : Option (List String)}
    (hlength : (attempts.getD []).length ≤ 2)
    (haccepted : ∀ time ∈ attempts.getD [], isTimestamp time = true) :
    parseAttempts attempts = .ok (attempts.getD []) := by
  unfold parseAttempts
  rw [if_pos ⟨hlength, List.all_eq_true.mpr haccepted⟩]

/-- A time that the schema accepts has an instant. -/
theorem parseInstant_ok : parseInstant time = .ok instant ↔ dateParse time = some instant := by
  unfold parseInstant
  cases dateParse time with
  | none => exact ⟨nofun, nofun⟩
  | some value => exact ⟨fun h => congrArg some (Except.ok.inj h), fun h => congrArg Except.ok
      (Option.some.inj h)⟩

/-- A text with an instant is one that the schema accepts. -/
theorem isTimestamp_of_dateParse (h : dateParse time = some instant) : isTimestamp time = true := by
  unfold dateParse at h
  unfold isTimestamp
  cases hparse : Timestamp.parse time with
  | none =>
      rw [hparse] at h
      cases h
  | some t => rfl

/-- The attempts that count, as instants. -/
theorem times_recentAttempts (window : Int) (instant : Instant) (attempts : List String) :
    (recentAttempts window instant attempts).filterMap dateParse =
      RollingLimits.recent window instant (attempts.filterMap dateParse) := by
  unfold recentAttempts RollingLimits.recent
  induction attempts with
  | nil => rfl
  | cons time attempts ih =>
      cases hparse : dateParse time with
      | none =>
          rw [List.filter_cons_of_neg (by rw [hparse]; exact Bool.false_ne_true),
            List.filterMap_cons_none hparse]
          exact ih
      | some value =>
          rw [List.filterMap_cons_some hparse]
          by_cases hcounts : instant - window < value
          · have hkept : (fun t => decide (instant - window < t)) value = true :=
              decide_eq_true hcounts
            rw [List.filter_cons_of_pos (by rw [hparse]; exact hkept),
              List.filterMap_cons_some hparse, ih, List.filter_cons, if_pos hkept]
          · have hdropped : ¬ (fun t => decide (instant - window < t)) value = true := by
              simpa using hcounts
            rw [List.filter_cons_of_neg (by rw [hparse]; exact hdropped), ih, List.filter_cons,
              if_neg hdropped]

/-- Every attempt that counts has an instant. -/
theorem length_recentAttempts (window : Int) (instant : Instant) (attempts : List String) :
    ((recentAttempts window instant attempts).filterMap dateParse).length =
      (recentAttempts window instant attempts).length := by
  unfold recentAttempts
  induction attempts with
  | nil => rfl
  | cons time attempts ih =>
      cases hparse : dateParse time with
      | none =>
          rw [List.filter_cons_of_neg (by rw [hparse]; exact Bool.false_ne_true)]
          exact ih
      | some value =>
          by_cases hcounts : instant - window < value
          · rw [List.filter_cons_of_pos (by rw [hparse]; exact decide_eq_true hcounts),
              List.filterMap_cons_some hparse, List.length_cons, List.length_cons, ih]
          · rw [List.filter_cons_of_neg (by rw [hparse]; simpa using hcounts), ih]

/-- What an attempt computes. -/
def Limiter.consumed (limiter : Limiter) (time : String) (db : InvestmentDb) :
    Except InvestmentError (Bool × InvestmentDb) := do
  let instant ← parseInstant time
  let previous ← parseAttempts (limiter.stored db)
  let recent := recentAttempts limiter.window instant previous
  return if recent.length < 2 then (true, limiter.store db (recent ++ [time])) else (false, db)

/-- What `consumeAttempt` computes. -/
theorem computes_consumeAttempt (stored : InvestmentDb → Option (List String))
    (store : InvestmentDb → List String → InvestmentDb) (window : Int) (instant : Instant)
    (time : String) :
    Computes (consumeAttempt stored store window instant time) fun db =>
      (parseAttempts (stored db)).map fun previous =>
        if (recentAttempts window instant previous).length < 2 then
          ((true, recentAttempts window instant previous),
            store db (recentAttempts window instant previous ++ [time]))
        else ((false, recentAttempts window instant previous), db) := by
  have hrest : ∀ previous : List String, Computes
      (if (recentAttempts window instant previous).length < 2 then do
        execute fun db => .ok (store db (recentAttempts window instant previous ++ [time]))
        return (true, recentAttempts window instant previous)
      else return (false, recentAttempts window instant previous))
      (fun db => .ok (if (recentAttempts window instant previous).length < 2 then
          ((true, recentAttempts window instant previous),
            store db (recentAttempts window instant previous ++ [time]))
        else ((false, recentAttempts window instant previous), db)) :
        InvestmentDb → Except InvestmentError ((Bool × List String) × InvestmentDb)) := by
    intro previous
    by_cases hroom : (recentAttempts window instant previous).length < 2
    · simp only [if_pos hroom]
      exact (computes_execute _).bind fun _ => computes_pure _
    · simp only [if_neg hroom]
      exact computes_pure _
  refine Computes.transaction (((computes_select _).bind hrest).congr ?_)
  intro db
  cases parseAttempts (stored db) with
  | ok previous => rfl
  | error e => rfl

/-- What a control refresh computes: the seconds to wait come with a refusal. -/
def controlled (time : String) (db : InvestmentDb) :
    Except InvestmentError (ControlAnswer × InvestmentDb) := do
  let instant ← parseInstant time
  let previous ← parseAttempts db.controlRefreshAttempts
  let recent := recentAttempts controlWindow instant previous
  return if recent.length < 2 then
    (⟨true, 0⟩, { db with controlRefreshAttempts := some (recent ++ [time]) })
  else
    (⟨false, (oldestAttempt recent).elim 0 fun oldest =>
      ⌈((oldest + controlWindow - instant : Int) : ℚ) / 1000⌉⟩, db)

/-- What a refresh does to the database. -/
theorem computes_consumeControlRefreshAttempt (time : String) :
    Computes (consumeControlRefreshAttempt time) (controlled time) := by
  refine ((computes_ensure (parseInstant time)).bind fun instant =>
    (computes_consumeAttempt (·.controlRefreshAttempts)
      (fun db attempts => { db with controlRefreshAttempts := some attempts }) controlWindow instant
      time).bind fun p => computes_pure _).congr ?_
  intro db
  unfold controlled
  cases parseInstant time with
  | error e => rfl
  | ok instant =>
      cases hstored : parseAttempts db.controlRefreshAttempts with
      | error e => simp only [hstored, Except.map, bind, Except.bind]
      | ok previous =>
          simp only [hstored, Except.map, bind, Except.bind, pure, Except.pure]
          by_cases hroom : (recentAttempts controlWindow instant previous).length < 2
          · simp only [if_pos hroom]
            rfl
          · simp only [if_neg hroom]
            rfl

/-- What a message does to it. -/
theorem computes_consumeAutomaticSmsAttempt (time : String) :
    Computes (consumeAutomaticSmsAttempt time) (Limiter.automaticSms.consumed time) := by
  refine ((computes_ensure (parseInstant time)).bind fun instant =>
    (computes_consumeAttempt (·.automaticSmsAttempts)
      (fun db attempts => { db with automaticSmsAttempts := some attempts }) smsWindow instant
      time).bind fun p => computes_pure p.1).congr ?_
  intro db
  unfold Limiter.consumed
  change _ = parseInstant time >>= fun instant =>
    parseAttempts db.automaticSmsAttempts >>= fun previous => _
  cases parseInstant time with
  | error e => rfl
  | ok instant =>
      cases hstored : parseAttempts db.automaticSmsAttempts with
      | error e => simp only [hstored, Except.map, bind, Except.bind]
      | ok previous =>
          simp only [hstored, Except.map, bind, Except.bind, pure, Except.pure]
          change _ = Except.ok
            (if (recentAttempts smsWindow instant previous).length < 2 then _ else _)
          split_ifs with hroom
          · rfl
          · rfl

/-- What an attempt of either limiter does. -/
theorem computes_consume (limiter : Limiter) (time : String) :
    Computes (limiter.consume time) (limiter.consumed time) := by
  cases limiter with
  | automaticSms => exact computes_consumeAutomaticSmsAttempt time
  | controlRefresh =>
      refine ((computes_consumeControlRefreshAttempt time).bind fun answer =>
        computes_pure answer.allowed).congr ?_
      intro db
      unfold controlled Limiter.consumed
      change _ = parseInstant time >>= fun instant =>
        parseAttempts db.controlRefreshAttempts >>= fun previous => _
      cases parseInstant time with
      | error e => rfl
      | ok instant =>
          cases hstored : parseAttempts db.controlRefreshAttempts with
          | error e => simp only [bind, Except.bind]
          | ok previous =>
              simp only [bind, Except.bind, pure, Except.pure]
              change _ = Except.ok
                (if (recentAttempts controlWindow instant previous).length < 2 then _ else _)
              split_ifs with hroom
              · rfl
              · rfl

end

section
variable {limiter : Limiter} {db : InvestmentDb} {time : String} {instant : Instant}

/-- **An attempt** is `RollingLimits.attempt` on the instants. -/
theorem consumed_eq (hstored : WellStored limiter db) (htime : dateParse time = some instant) :
    limiter.consumed time db =
      .ok (if RollingLimits.allows 2 limiter.window instant (limiter.times db) then
        (true, limiter.store db (recentAttempts limiter.window instant
          ((limiter.stored db).getD []) ++ [time]))
      else (false, db)) := by
  have hallows : RollingLimits.allows 2 limiter.window instant (limiter.times db) = true ↔
      (recentAttempts limiter.window instant ((limiter.stored db).getD [])).length < 2 := by
    rw [RollingLimits.allows_iff, Limiter.times, ← times_recentAttempts, length_recentAttempts]
  have hprevious := parseAttempts_ok hstored.length hstored.accepted
  unfold Limiter.consumed
  rw [parseInstant_ok.mpr htime]
  change parseAttempts (limiter.stored db) >>= _ = _
  rw [hprevious]
  change Except.ok (if _ then _ else _) = _
  simp only [hallows]

/-- The instants stored by an allowed attempt. -/
theorem times_store (htime : dateParse time = some instant) :
    limiter.times (limiter.store db (recentAttempts limiter.window instant
        ((limiter.stored db).getD []) ++ [time])) =
      RollingLimits.recent limiter.window instant (limiter.times db) ++ [instant] := by
  unfold Limiter.times
  rw [Limiter.stored_store, Option.getD_some, List.filterMap_append, times_recentAttempts,
    List.filterMap_cons_some htime, List.filterMap_nil]

/-- A stored attempt leaves good attempts. -/
theorem wellStored_store (hstored : WellStored limiter db) (htime : dateParse time = some instant)
    (hallows : RollingLimits.allows 2 limiter.window instant (limiter.times db) = true) :
    WellStored limiter (limiter.store db (recentAttempts limiter.window instant
      ((limiter.stored db).getD []) ++ [time])) := by
  rw [RollingLimits.allows_iff, Limiter.times, ← times_recentAttempts, length_recentAttempts]
    at hallows
  constructor
  · rw [Limiter.stored_store, Option.getD_some, List.length_append, List.length_singleton]
    omega
  · intro text htext
    rw [Limiter.stored_store, Option.getD_some, List.mem_append] at htext
    rcases htext with htext | htext
    · exact hstored.accepted text (List.mem_of_mem_filter htext)
    · rw [List.mem_singleton] at htext
      rw [htext]
      exact isTimestamp_of_dateParse htime

/-- Good attempts stay good where they are not touched. -/
theorem WellStored.of_stored_eq {db' : InvestmentDb} (h : WellStored limiter db)
    (hstored : limiter.stored db' = limiter.stored db) : WellStored limiter db' := by
  constructor
  · rw [hstored]
    exact h.length
  · rw [hstored]
    exact h.accepted

/-- The times are read from the stored attempts alone. -/
theorem times_of_stored_eq {db' : InvestmentDb} (hstored : limiter.stored db' = limiter.stored db) :
    limiter.times db' = limiter.times db := by
  unfold Limiter.times
  rw [hstored]

end

/-! ## What leaves the attempts alone -/

/-- The limiter stores the same attempts. -/
def SameAttempts (limiter : Limiter) (db db' : InvestmentDb) : Prop :=
  limiter.stored db' = limiter.stored db

/-- A program that leaves the limiter's attempts alone. -/
abbrev LeavesAttempts {α : Type} (limiter : Limiter) (program : InvestmentM α) : Prop :=
  Frames (SameAttempts limiter) program

section
variable {limiter : Limiter} {α β : Type}

/-- A database has its own attempts. -/
theorem SameAttempts.refl (db : InvestmentDb) : SameAttempts limiter db db := Eq.refl _

/-- One program after another. -/
theorem leavesAttempts_bind {first : InvestmentM α} {rest : α → InvestmentM β}
    (hfirst : LeavesAttempts limiter first) (hrest : ∀ a, LeavesAttempts limiter (rest a)) :
    LeavesAttempts limiter (first >>= rest) :=
  hfirst.bind hrest fun h₁ h₂ => Eq.trans h₂ h₁

/-- A program that only reads leaves the attempts alone. -/
theorem leavesAttempts_of_readOnly {program : InvestmentM α} (h : ReadOnly program) :
    LeavesAttempts limiter program :=
  h.frames SameAttempts.refl

/-- So does an answer. -/
theorem leavesAttempts_pure (a : α) : LeavesAttempts limiter (pure a : InvestmentM α) :=
  leavesAttempts_of_readOnly (readOnly_pure a)

/-- So does a check. -/
theorem leavesAttempts_ensure (result : Except InvestmentError α) :
    LeavesAttempts limiter (ensure result) :=
  leavesAttempts_of_readOnly (readOnly_ensure result)

/-- So does reading a table. -/
theorem leavesAttempts_select (read : InvestmentDb → Except InvestmentError α) :
    LeavesAttempts limiter (select read) :=
  leavesAttempts_of_readOnly (readOnly_select read)

/-- So does a statement about another table. -/
theorem leavesAttempts_execute {effect : InvestmentDb → Except InvestmentError InvestmentDb}
    (heffect : ∀ db db', effect db = .ok db' → SameAttempts limiter db db') :
    LeavesAttempts limiter (execute effect) :=
  frames_execute SameAttempts.refl heffect

/-- A transaction leaves alone what its work leaves alone. -/
theorem leavesAttempts_transaction {work : InvestmentM α} (h : LeavesAttempts limiter work) :
    LeavesAttempts limiter (transaction work) :=
  Frames.transaction h SameAttempts.refl

end

section
variable (host : Host) (provider : InvestmentProvider) {limiter : Limiter}

/-- Writing records leaves the attempts alone. -/
theorem sameAttempts_of_sameButRecords {db db' : InvestmentDb} (h : SameButRecords db db') :
    SameAttempts limiter db db' := by
  unfold SameAttempts
  rw [h]
  cases limiter with
  | _ => rfl

/-- So does a failure. -/
theorem failed_sameAttempts {failure : InvestmentFailure} {db db' : InvestmentDb}
    (h : failed provider failure db = .ok db') : SameAttempts limiter db db' := by
  obtain ⟨state, -, ⟨-, -, rfl⟩ | ⟨-, rfl⟩⟩ := failed_ok.mp h
  · cases limiter with
    | _ => exact Eq.refl _
  · exact SameAttempts.refl _

/-- So does an observation. -/
theorem observed_sameAttempts {snapshot : InvestmentSnapshot} {db db' : InvestmentDb}
    {summary : InvestmentImportSummary}
    (h : observed host provider snapshot db = .ok (summary, db')) :
    SameAttempts limiter db db' := by
  obtain ⟨state, stale, -, -, hcases⟩ := observed_ok.mp h
  rcases hcases with ⟨-, -, rfl⟩ | ⟨-, -, -, -, rfl⟩
  · exact SameAttempts.refl _
  · have hrecords := writtenRecords_sameButRecords host provider snapshot.records
      snapshot.observedAt (⟨true, 0, 0, 0⟩, db)
    have hsame : SameAttempts limiter db _ := sameAttempts_of_sameButRecords hrecords
    refine Eq.trans ?_ hsame
    cases limiter with
    | _ => rfl

/-- So does a snapshot. -/
theorem leavesAttempts_applySnapshot (input : InvestmentSnapshot) :
    LeavesAttempts limiter (applySnapshot host provider input) := by
  refine (computes_applySnapshot host provider input).frames
    (atomic_applySnapshot host provider input) SameAttempts.refl ?_
  intro db summary db' h
  obtain ⟨snapshot, -, hcases⟩ := imported_ok.mp h
  rcases hcases with ⟨-, -, hfailed⟩ | ⟨-, -, hobserved⟩
  · exact failed_sameAttempts provider hfailed
  · exact observed_sameAttempts host provider hobserved

/-- So do the records of an archive. -/
theorem seededRecords_sameAttempts (rows : List InvestmentRecord) (observedAt : String)
    {start after : InvestmentImportSummary × InvestmentDb}
    (h : seededRecords host provider rows observedAt start = .ok after) :
    SameAttempts limiter start.2 after.2 := by
  induction rows generalizing start with
  | nil =>
      cases h
      exact SameAttempts.refl _
  | cons row rows ih =>
      unfold seededRecords at h
      rw [List.foldlM_cons] at h
      obtain ⟨mid, hmid, h⟩ := except_bind_ok.mp h
      refine Eq.trans (ih h) ?_
      cases harchived : archived host provider row observedAt start.2 with
      | error e =>
          rw [harchived] at hmid
          cases hmid
      | ok q =>
          rw [harchived] at hmid
          cases hmid
          obtain ⟨outcome, db'⟩ := q
          rcases archived_ok.mp harchived with ⟨-, -, rfl⟩ | ⟨old, -, -, -, rfl⟩
          · cases limiter with
            | _ => rfl
          · rfl

/-- So does its evidence. -/
theorem withEvidence_sameAttempts (db : InvestmentDb) (evidence : StoredEvidence) :
    SameAttempts limiter db (db.withEvidence evidence) := by
  unfold InvestmentDb.withEvidence
  split_ifs
  · exact SameAttempts.refl _
  · cases limiter with
    | _ => exact Eq.refl _

/-- So does a whole archive. -/
theorem leavesAttempts_seedArchive (input : InvestmentSnapshot) (evidence : SeedEvidence) :
    LeavesAttempts limiter (seedArchive host provider input evidence) := by
  refine (computes_seedArchive host provider input evidence).frames
    (atomic_seedArchive host provider input evidence) SameAttempts.refl ?_
  intro db summary db' h
  obtain ⟨snapshot, stored, -, -, -, hrecords⟩ := seeded_ok.mp h
  refine Eq.trans (seededRecords_sameAttempts host provider _ _ hrecords) ?_
  exact withEvidence_sameAttempts db stored

/-- Recording a failure leaves the attempts alone. -/
theorem leavesAttempts_recordFailure (failure : InvestmentFailure) :
    LeavesAttempts limiter (recordFailure provider failure) := by
  refine (computes_recordFailure provider failure).frames (atomic_recordFailure provider failure)
    SameAttempts.refl ?_
  intro db u db' h
  cases hfailed : failed provider failure db with
  | error e =>
      rw [hfailed] at h
      cases h
  | ok after =>
      rw [hfailed] at h
      cases h
      exact failed_sameAttempts provider hfailed

/-- So does storing the session. -/
theorem leavesAttempts_setSessionState (state : ClalSessionState) :
    LeavesAttempts limiter (setSessionState state) := by
  refine leavesAttempts_bind (leavesAttempts_ensure _) fun validated =>
    leavesAttempts_transaction (leavesAttempts_bind (leavesAttempts_select _) fun previous => ?_)
  by_cases hlater : checkedLater previous validated = true
  · rw [if_pos hlater]
    refine leavesAttempts_execute fun db db' h => ?_
    cases h
    cases limiter with
    | _ => exact Eq.refl _
  · rw [if_neg hlater]
    exact leavesAttempts_pure _

/-- So does reserving a recovery. -/
theorem leavesAttempts_reserveManualRecoveryRequest (requestId createdAt : String) :
    LeavesAttempts limiter (reserveManualRecoveryRequest host requestId createdAt) := by
  refine leavesAttempts_bind (leavesAttempts_ensure _) fun _ =>
    leavesAttempts_bind (leavesAttempts_ensure _) fun _ =>
      leavesAttempts_bind (leavesAttempts_transaction
        (leavesAttempts_bind (leavesAttempts_select _) fun found => ?_)) fun stored => ?_
  · cases found with
    | some request => exact leavesAttempts_pure _
    | none =>
        refine leavesAttempts_bind (leavesAttempts_execute fun db db' h => ?_) fun _ =>
          leavesAttempts_bind (leavesAttempts_execute fun db db' h => ?_) fun _ =>
            leavesAttempts_pure _
        · cases h
          cases limiter with
          | _ => exact Eq.refl _
        · cases h
          cases limiter with
          | _ => exact Eq.refl _
  · cases stored with
    | some request =>
        exact leavesAttempts_bind (leavesAttempts_ensure _) fun _ => leavesAttempts_pure _
    | none => exact leavesAttempts_pure _

/-- So does finishing one. -/
theorem leavesAttempts_finishManualRecoveryRequest (recovery : RecoveryStatus) :
    LeavesAttempts limiter (finishManualRecoveryRequest host recovery) := by
  refine leavesAttempts_bind (leavesAttempts_ensure _) fun validated =>
    leavesAttempts_execute fun db db' h => ?_
  cases h
  cases db.recoveryRequests.find validated.challengeId with
  | none => exact SameAttempts.refl _
  | some request =>
      cases limiter with
      | _ => exact Eq.refl _

/-- So does reading the feed. -/
theorem leavesAttempts_readFeed : LeavesAttempts limiter (readFeed provider) := by
  refine leavesAttempts_transaction (leavesAttempts_bind ?_ fun rows =>
    leavesAttempts_bind (leavesAttempts_select _) fun _ => leavesAttempts_pure _)
  refine frames_foldlM _ ?_ SameAttempts.refl (fun h₁ h₂ => Eq.trans h₂ h₁) _
  intro rows kind
  exact leavesAttempts_bind (leavesAttempts_select _) fun _ => leavesAttempts_pure _

/-- Answering something else leaves the same store. -/
theorem storeAfter_answer {α β : Type} (program : InvestmentM α) (f : α → β)
    (s : Session InvestmentDb) :
    storeAfter ((program >>= fun a => pure (f a)) s) = storeAfter (program s) := by
  cases hrun : program s with
  | ok a s' =>
      rw [bind_of_ok hrun]
      rfl
  | error e s' =>
      rw [bind_of_error hrun]
      rfl

/-- An attempt that throws has changed nothing. -/
theorem atomic_consume (limiter : Limiter) (time : String) : Atomic (limiter.consume time) := by
  cases limiter with
  | automaticSms =>
      exact Atomic.after (readOnly_ensure _) fun _ =>
        (atomic_transaction _).map fun p : Bool × List String => p.1
  | controlRefresh =>
      have hfirst : Atomic (consumeControlRefreshAttempt time) :=
        Atomic.after (readOnly_ensure _) fun _ => (atomic_transaction _).map _
      exact hfirst.map ControlAnswer.allowed

/-- The attempts of one limiter are not the other's. -/
theorem leavesAttempts_consume {other : Limiter} (hother : other ≠ limiter) (time : String) :
    LeavesAttempts limiter (other.consume time) := by
  intro s
  cases hrun : other.consume time s with
  | error e s' =>
      exact congrArg limiter.stored (atomic_consume other time s e s' hrun)
  | ok b s' =>
      have hreturns := (computes_consume other time).returns s b s' hrun
      unfold Limiter.consumed at hreturns
      obtain ⟨instant, -, h⟩ := except_bind_ok.mp hreturns
      obtain ⟨previous, -, h⟩ := except_bind_ok.mp h
      change limiter.stored s'.store = limiter.stored s.store
      dsimp only at h
      by_cases hroom : (recentAttempts other.window instant previous).length < 2
      · rw [if_pos hroom] at h
        have hstore : other.store s.store _ = s'.store := congrArg Prod.snd (Except.ok.inj h)
        rw [← hstore]
        cases other with
        | automaticSms => cases limiter with
          | automaticSms => exact absurd rfl hother
          | controlRefresh => rfl
        | controlRefresh => cases limiter with
          | automaticSms => rfl
          | controlRefresh => exact absurd rfl hother
      · rw [if_neg hroom] at h
        have hstore : s.store = s'.store := congrArg Prod.snd (Except.ok.inj h)
        rw [← hstore]

/-- An operation that is no attempt of the limiter. -/
theorem leavesAttempts_perform {op : InvestmentOp} (hop : limiter.attempted op = none) :
    LeavesAttempts limiter (op.perform host provider) := by
  have hthen : ∀ {α : Type} {program : InvestmentM α}
      (f : α → Option InvestmentImportSummary), LeavesAttempts limiter program →
      LeavesAttempts limiter (program >>= fun a => pure (f a)) :=
    fun f h => leavesAttempts_bind h fun _ => leavesAttempts_pure _
  cases op with
  | applySnapshot input => exact hthen some (leavesAttempts_applySnapshot host provider input)
  | seedArchive input evidence =>
      exact hthen some (leavesAttempts_seedArchive host provider input evidence)
  | recordFailure failure => exact hthen _ (leavesAttempts_recordFailure provider failure)
  | getSessionState =>
      exact hthen _ (leavesAttempts_bind (leavesAttempts_select _) fun _ => leavesAttempts_pure _)
  | setSessionState state => exact hthen _ (leavesAttempts_setSessionState state)
  | getAutomaticSmsNextAllowedAt now =>
      exact hthen _ (leavesAttempts_bind (leavesAttempts_ensure _) fun _ =>
        leavesAttempts_bind (leavesAttempts_select _) fun _ => leavesAttempts_pure _)
  | consumeAutomaticSmsAttempt time =>
      cases limiter with
      | automaticSms => cases hop
      | controlRefresh =>
          have hother : Limiter.automaticSms ≠ Limiter.controlRefresh := by decide
          exact hthen _ (leavesAttempts_consume hother time)
  | consumeControlRefreshAttempt time =>
      cases limiter with
      | controlRefresh => cases hop
      | automaticSms =>
          refine hthen _ ?_
          intro s
          have hother : Limiter.controlRefresh ≠ Limiter.automaticSms := by decide
          have hleaves := leavesAttempts_consume hother time s
          rwa [Limiter.consume, storeAfter_answer] at hleaves
  | getManualRecoveryRequest requestId =>
      exact hthen _ (leavesAttempts_bind (leavesAttempts_ensure _) fun _ =>
        leavesAttempts_select _)
  | getLatestManualRecoveryRequest => exact hthen _ (leavesAttempts_select _)
  | reserveManualRecoveryRequest requestId createdAt =>
      exact hthen _ (leavesAttempts_reserveManualRecoveryRequest host requestId createdAt)
  | finishManualRecoveryRequest recovery =>
      exact hthen _ (leavesAttempts_finishManualRecoveryRequest host recovery)
  | getFeed => exact hthen _ (leavesAttempts_readFeed provider)

end

/-! ## Runs -/

section
variable (host : Host) (provider : InvestmentProvider) (limiter : Limiter)

/-- The instant of the attempt that the call makes. -/
def Limiter.attemptInstant (limiter : Limiter) (call : InvestmentCall) : Option Instant :=
  (limiter.attempted call.op).bind dateParse

/-- The answer to the attempt, if the call makes one and returns. -/
def Limiter.answer (limiter : Limiter) (db : InvestmentDb) (call : InvestmentCall) : Option Bool :=
  (limiter.attempted call.op).bind fun time =>
    match limiter.consume time ⟨db, call.faults⟩ with
    | .ok allowed _ => some allowed
    | .error _ _ => none

/-- The instants of the attempts that return. -/
def performedAttempts : InvestmentDb → List InvestmentCall → List Instant
  | _, [] => []
  | db, call :: calls =>
      (if (limiter.answer db call).isSome then (limiter.attemptInstant call).toList else []) ++
        performedAttempts (callStep host provider db call) calls

/-- The instants of the allowed attempts. -/
def allowedAttempts : InvestmentDb → List InvestmentCall → List Instant
  | _, [] => []
  | db, call :: calls =>
      (if limiter.answer db call = some true then (limiter.attemptInstant call).toList else []) ++
        allowedAttempts (callStep host provider db call) calls

/-- The attempt would be allowed, if the database refuses no statement. -/
def Limiter.wouldAllow (limiter : Limiter) (db : InvestmentDb) (time : String) : Bool :=
  match limiter.consume time ⟨db, []⟩ with
  | .ok allowed _ => allowed
  | .error _ _ => false

variable {host provider limiter} {db : InvestmentDb} {call : InvestmentCall} {time : String}

/-- Only a limiter's own operation asks it. -/
theorem op_of_attempted (h : limiter.attempted call.op = some time) :
    call.op = limiter.op time := by
  unfold Limiter.attempted at h
  split at h
  · rename_i heq
    cases h
    exact heq
  · rename_i heq
    cases h
    exact heq
  · cases h

/-- The database after an attempt. -/
theorem callStep_of_attempted (h : limiter.attempted call.op = some time) :
    callStep host provider db call = (storeAfter (limiter.consume time ⟨db, call.faults⟩)).store := by
  unfold callStep InvestmentCall.result
  rw [op_of_attempted h]
  cases limiter with
  | automaticSms =>
      change (storeAfter ((consumeAutomaticSmsAttempt time >>= fun _ => pure none) _)).store = _
      rw [storeAfter_discard]
      rfl
  | controlRefresh =>
      change (storeAfter ((consumeControlRefreshAttempt time >>= fun _ => pure none) _)).store = _
      rw [storeAfter_discard, Limiter.consume, storeAfter_answer]

/-- **One call**: it leaves the attempts alone, or attempts at an instant. -/
theorem limiter_step (hstored : WellStored limiter db) :
    (limiter.answer db call = none ∧
        SameAttempts limiter db (callStep host provider db call)) ∨
      ∃ instant, limiter.attemptInstant call = some instant ∧
        limiter.answer db call =
          some (RollingLimits.allows 2 limiter.window instant (limiter.times db)) ∧
        limiter.times (callStep host provider db call) =
          RollingLimits.attempt 2 limiter.window (limiter.times db) instant ∧
        WellStored limiter (callStep host provider db call) := by
  cases hattempted : limiter.attempted call.op with
  | none =>
      refine .inl ⟨?_, leavesAttempts_perform host provider hattempted ⟨db, call.faults⟩⟩
      unfold Limiter.answer
      rw [hattempted]
      rfl
  | some time =>
      rw [callStep_of_attempted hattempted]
      unfold Limiter.answer Limiter.attemptInstant
      rw [hattempted, Option.bind_some, Option.bind_some]
      cases hrun : limiter.consume time ⟨db, call.faults⟩ with
      | error e s =>
          refine .inl ⟨rfl, ?_⟩
          have hatomic := atomic_consume limiter time _ _ _ hrun
          exact congrArg limiter.stored hatomic
      | ok allowed s =>
          have hreturns := (computes_consume limiter time).returns _ _ _ hrun
          obtain ⟨instant, hinstant, -⟩ := except_bind_ok.mp hreturns
          have htime := parseInstant_ok.mp hinstant
          rw [consumed_eq hstored htime] at hreturns
          have hpair := Except.ok.inj hreturns
          refine .inr ⟨instant, htime, ?_⟩
          unfold RollingLimits.attempt
          by_cases hallows : RollingLimits.allows 2 limiter.window instant (limiter.times db) = true
          · rw [if_pos hallows] at hpair
            have hallowed : true = allowed := congrArg Prod.fst hpair
            have hstore : limiter.store db _ = s.store := congrArg Prod.snd hpair
            change some allowed = _ ∧ limiter.times s.store = _ ∧ WellStored limiter s.store
            rw [← hallowed, ← hstore, if_pos hallows, hallows]
            exact ⟨rfl, times_store htime, wellStored_store hstored htime hallows⟩
          · rw [if_neg hallows] at hpair
            have hallowed : false = allowed := congrArg Prod.fst hpair
            have hstore : db = s.store := congrArg Prod.snd hpair
            change some allowed = _ ∧ limiter.times s.store = _ ∧ WellStored limiter s.store
            rw [← hallowed, ← hstore, if_neg hallows, Bool.eq_false_iff.mpr hallows]
            exact ⟨rfl, rfl, hstored⟩

/-- Every call keeps the attempts good. -/
theorem wellStored_callStep (hstored : WellStored limiter db) :
    WellStored limiter (callStep host provider db call) := by
  rcases @limiter_step host provider limiter db call hstored with ⟨-, hsame⟩ | ⟨-, -, -, -, hafter⟩
  · exact hstored.of_stored_eq hsame
  · exact hafter

/-- After every run the attempts are good. -/
theorem wellStored_run (calls : List InvestmentCall) :
    WellStored limiter (Runs.run (callStep host provider) emptyInvestmentDb calls) := by
  refine Runs.run_invariant ?_ (fun db call h => wellStored_callStep h) calls
  cases limiter with
  | _ =>
      constructor
      · decide
      · intro time htime
        cases htime

/-- The allowed attempts of a run are those of the abstract limiter. -/
theorem allowedAttempts_eq (hstored : WellStored limiter db) (calls : List InvestmentCall) :
    allowedAttempts host provider limiter db calls =
      RollingLimits.admitted 2 limiter.window (limiter.times db)
        (performedAttempts host provider limiter db calls) := by
  induction calls generalizing db with
  | nil => rfl
  | cons call calls ih =>
      have hafter : WellStored limiter (callStep host provider db call) :=
        wellStored_callStep hstored
      have hrest := ih hafter
      rw [allowedAttempts, performedAttempts, hrest]
      rcases @limiter_step host provider limiter db call hstored with
        ⟨hnone, hsame⟩ | ⟨instant, hinstant, hanswer, htimes, -⟩
      · rw [hnone, times_of_stored_eq hsame, if_neg (by decide), if_neg (by decide)]
        rfl
      · have hsome : (some (RollingLimits.allows 2 limiter.window instant
            (limiter.times db))).isSome = true := rfl
        rw [hanswer, hinstant, htimes, if_pos hsome]
        simp only [Option.some.injEq]
        rfl

/-- The performed attempts are among the attempts. -/
theorem performedAttempts_sublist (db : InvestmentDb) (calls : List InvestmentCall) :
    (performedAttempts host provider limiter db calls).Sublist
      (calls.filterMap limiter.attemptInstant) := by
  induction calls generalizing db with
  | nil => exact List.Sublist.refl _
  | cons call calls ih =>
      have hsplit : (call :: calls).filterMap limiter.attemptInstant =
          (limiter.attemptInstant call).toList ++ calls.filterMap limiter.attemptInstant := by
        cases hinstant : limiter.attemptInstant call with
        | none => rw [List.filterMap_cons_none hinstant]; rfl
        | some instant => rw [List.filterMap_cons_some hinstant]; rfl
      rw [performedAttempts, hsplit]
      refine List.Sublist.append ?_ (ih _)
      split_ifs
      · exact List.Sublist.refl _
      · exact List.nil_sublist _

end

/-! ## The predictors -/

/-- The first millisecond of the year 10000, which the schema does not accept. -/
def endOfYears : Int := 253402300800000

/-- `toISOString` writes an instant that the schema reads back. -/
theorem dateParse_toIsoString {t : Timestamp} {instant : Int} (hlow : millis t ≤ instant)
    (hhigh : instant < endOfYears) : dateParse (toIsoString instant) = some instant := by
  unfold endOfYears at hhigh
  obtain ⟨hvalid, hday⟩ := CivilDate.ofDayNumber_spec (instant / 86400000)
  have hfirst := millis_day t
  have hyear : 0 ≤ (CivilDate.ofDayNumber (instant / 86400000)).year := by
    refine t.year_nonneg.trans (CivilDate.year_le_of_dayNumber_le t.valid hvalid ?_)
    rw [hday]
    omega
  have hlast : (CivilDate.ofDayNumber (instant / 86400000)).year ≤ 9999 := by
    have hend : CivilDate.Valid ⟨9999, 12, 31⟩ := by decide
    refine CivilDate.year_le_of_dayNumber_le hvalid hend ?_
    have hdays : CivilDate.dayNumber ⟨9999, 12, 31⟩ = 2932896 := by decide
    rw [hday, hdays]
    omega
  have htime : (instant % 86400000).toNat < 86400000 := by omega
  have htext : toIsoString instant =
      (ofMillis _ hvalid ⟨hyear, hlast⟩ (instant % 86400000).toNat).text := by
    rw [text_ofMillis _ _ _ htime]
    unfold toIsoString isoDatePart
    rw [if_pos ⟨hyear, hlast⟩]
  rw [htext, dateParse_text, millis_ofMillis _ _ _ htime, hday]
  congr 1
  omega

section
variable {limiter : Limiter} {db : InvestmentDb} {time : String} {instant oldest : Int}

/-- Whether an attempt would be allowed, by the attempts that count. -/
theorem wouldAllow_eq (hstored : WellStored limiter db) (htime : dateParse time = some instant) :
    limiter.wouldAllow db time =
      RollingLimits.allows 2 limiter.window instant (limiter.times db) := by
  unfold Limiter.wouldAllow
  have hconsumed := consumed_eq hstored htime
  by_cases hallows : RollingLimits.allows 2 limiter.window instant (limiter.times db) = true
  · rw [if_pos hallows] at hconsumed
    rw [(computes_consume limiter time).accepted db _ _ hconsumed]
    exact hallows.symm
  · rw [if_neg hallows] at hconsumed
    rw [(computes_consume limiter time).accepted db _ _ hconsumed]
    exact (Bool.eq_false_iff.mpr hallows).symm

/-- The attempts that count are all of the stored ones when one more is refused. -/
theorem oldestAttempt_of_refused (hstored : WellStored limiter db)
    (hrefused : RollingLimits.allows 2 limiter.window instant (limiter.times db) = false) :
    ∃ oldest : Int, oldestAttempt (recentAttempts limiter.window instant ((limiter.stored db).getD [])) =
        some oldest ∧ (limiter.times db).min? = some oldest ∧
      instant < oldest + limiter.window ∧ (limiter.times db).length = 2 := by
  have hlength : (limiter.times db).length ≤ 2 :=
    (List.length_filterMap_le ..).trans hstored.length
  obtain ⟨oldest, hmin, hless⟩ := RollingLimits.oldest_of_refused (by decide) hlength hrefused
  obtain ⟨hrecent, hfull⟩ := RollingLimits.recent_eq_of_refused hlength hrefused
  refine ⟨oldest, ?_, hmin, hless, hfull⟩
  unfold oldestAttempt
  rw [times_recentAttempts]
  change (RollingLimits.recent limiter.window instant (limiter.times db)).min? = _
  rw [hrecent]
  exact hmin

/-- A limiter whose memory is full allows from its oldest attempt plus the
window on. -/
theorem wouldAllow_iff_of_full (hstored : WellStored limiter db)
    (hmin : (limiter.times db).min? = some oldest) (hfull : (limiter.times db).length = 2)
    (htime : dateParse time = some instant) :
    limiter.wouldAllow db time = true ↔ oldest + limiter.window ≤ instant := by
  rw [wouldAllow_eq hstored htime]
  exact RollingLimits.allows_iff_of_full hfull hmin

/-- Every stored instant is the one of an accepted text. -/
theorem exists_millis_of_min (hmin : (limiter.times db).min? = some oldest) :
    ∃ t : Timestamp, millis t = oldest := by
  have hmem := (List.min?_eq_some_iff.mp hmin).1
  obtain ⟨time, -, htime⟩ := List.mem_filterMap.mp hmem
  obtain ⟨t, rfl⟩ := isTimestamp_iff.mp (isTimestamp_of_dateParse htime)
  rw [dateParse_text] at htime
  exact ⟨t, Option.some.inj htime⟩

end

/-- What `getAutomaticSmsNextAllowedAt` answers at `now`. -/
structure NextAllowed (db : InvestmentDb) (now : Int) (time : String) (answer : Option String) :
    Prop where
  allowed : answer = none ↔ Limiter.automaticSms.wouldAllow db time = true
  next : ∀ text, answer = some text → ∃ next : Int, text = toIsoString next ∧ now < next ∧
    (∀ (later : String) (u : Int), dateParse later = some u → now ≤ u →
      (Limiter.automaticSms.wouldAllow db later = true ↔ next ≤ u)) ∧
    (next < endOfYears → dateParse text = some next)

/-- What `consumeControlRefreshAttempt` answers at `now`: the seconds to wait
are long enough, and as few as that. -/
structure RetryAfter (db db' : InvestmentDb) (now : Int) (time : String)
    (answer : ControlAnswer) : Prop where
  allowed : answer.allowed = Limiter.controlRefresh.wouldAllow db time
  none : answer.allowed = true → answer.retryAfterSeconds = 0
  retry : answer.allowed = false → db' = db ∧ 0 < answer.retryAfterSeconds ∧
    (∀ (later : String) (u : Int), dateParse later = some u → now + answer.retryAfterSeconds * 1000 ≤ u →
      Limiter.controlRefresh.wouldAllow db' later = true) ∧
    ∀ (later : String) (u : Int), dateParse later = some u → now ≤ u →
      u + 1000 ≤ now + answer.retryAfterSeconds * 1000 →
        Limiter.controlRefresh.wouldAllow db' later = false

section
variable {db : InvestmentDb} {now : Int} {time : String}

/-- **When the next message may be requested.** -/
theorem nextAllowed (hstored : WellStored .automaticSms db) (htime : dateParse time = some now) :
    ∃ answer s, getAutomaticSmsNextAllowedAt time ⟨db, []⟩ = .ok answer s ∧
      NextAllowed db now time answer := by
  have hcomputes : Computes (getAutomaticSmsNextAllowedAt time) _ :=
    (computes_ensure (parseInstant time)).bind fun instant =>
      (computes_select fun db : InvestmentDb => parseAttempts db.automaticSmsAttempts).bind fun previous =>
        computes_pure (if 2 ≤ (recentAttempts smsWindow instant previous).length then
          (oldestAttempt (recentAttempts smsWindow instant previous)).map fun oldest =>
            toIsoString (oldest + smsWindow) else none)
  have hprevious := parseAttempts_ok hstored.length hstored.accepted
  change parseAttempts db.automaticSmsAttempts = .ok (db.automaticSmsAttempts.getD []) at hprevious
  have hrun := hcomputes.accepted db
    (if 2 ≤ (recentAttempts smsWindow now (db.automaticSmsAttempts.getD [])).length then
      (oldestAttempt (recentAttempts smsWindow now (db.automaticSmsAttempts.getD []))).map
        fun oldest => toIsoString (oldest + smsWindow) else none) db
    (by simp only [parseInstant_ok.mpr htime, hprevious, Except.map, bind, Except.bind])
  refine ⟨_, _, hrun, ?_⟩
  have hcount : (recentAttempts smsWindow now (db.automaticSmsAttempts.getD [])).length =
      (RollingLimits.recent smsWindow now (Limiter.automaticSms.times db)).length := by
    rw [Limiter.times, ← times_recentAttempts]
    exact (length_recentAttempts _ _ _).symm
  have hallow := wouldAllow_eq hstored htime
  cases hallows : RollingLimits.allows 2 smsWindow now (Limiter.automaticSms.times db) with
  | true =>
      have hroom := RollingLimits.allows_iff.mp hallows
      rw [if_neg (by omega)]
      refine ⟨⟨fun _ => hallow.trans hallows, fun _ => rfl⟩, nofun⟩
  | false =>
      obtain ⟨oldest, holdest, hmin, hless, hfull⟩ := oldestAttempt_of_refused hstored hallows
      have hroom : ¬ (RollingLimits.recent smsWindow now
          (Limiter.automaticSms.times db)).length < 2 := by
        intro h
        rw [RollingLimits.allows_iff.mpr h] at hallows
        cases hallows
      change oldestAttempt (recentAttempts smsWindow now (db.automaticSmsAttempts.getD [])) = _
        at holdest
      rw [if_pos (by omega), holdest, Option.map_some]
      have hrefused : Limiter.automaticSms.wouldAllow db time = false := hallow.trans hallows
      refine ⟨⟨nofun, fun h => by rw [hrefused] at h; cases h⟩, ?_⟩
      rintro text htext
      obtain rfl := Option.some.inj htext
      refine ⟨oldest + smsWindow, rfl, hless, ?_, ?_⟩
      · intro later u hu _
        exact wouldAllow_iff_of_full hstored hmin hfull hu
      · intro hend
        obtain ⟨t, ht⟩ := exists_millis_of_min hmin
        refine dateParse_toIsoString (t := t) ?_ hend
        rw [ht]
        unfold smsWindow
        omega

/-- **After how many seconds a refresh may be asked for again.** -/
theorem retryAfter (hstored : WellStored .controlRefresh db) (htime : dateParse time = some now) :
    ∃ answer s, consumeControlRefreshAttempt time ⟨db, []⟩ = .ok answer s ∧
      RetryAfter db s.store now time answer := by
  have hprevious := parseAttempts_ok hstored.length hstored.accepted
  change parseAttempts db.controlRefreshAttempts = .ok (db.controlRefreshAttempts.getD [])
    at hprevious
  have hcount : (recentAttempts controlWindow now (db.controlRefreshAttempts.getD [])).length =
      (RollingLimits.recent controlWindow now (Limiter.controlRefresh.times db)).length := by
    rw [Limiter.times, ← times_recentAttempts]
    exact (length_recentAttempts _ _ _).symm
  have hallow := wouldAllow_eq hstored htime
  cases hallows : RollingLimits.allows 2 controlWindow now (Limiter.controlRefresh.times db) with
  | true =>
      have hroom := RollingLimits.allows_iff.mp hallows
      have hanswer : controlled time db = .ok (⟨true, 0⟩, { db with
          controlRefreshAttempts := some (recentAttempts controlWindow now
            (db.controlRefreshAttempts.getD []) ++ [time]) }) := by
        unfold controlled
        rw [parseInstant_ok.mpr htime]
        change parseAttempts db.controlRefreshAttempts >>= _ = _
        rw [hprevious]
        change Except.ok (if _ then _ else _) = _
        rw [if_pos (by omega)]
      refine ⟨_, _, (computes_consumeControlRefreshAttempt time).accepted _ _ _ hanswer, ?_⟩
      refine ⟨?_, fun _ => rfl, nofun⟩
      exact (hallow.trans hallows).symm
  | false =>
      obtain ⟨oldest, holdest, hmin, hless, hfull⟩ := oldestAttempt_of_refused hstored hallows
      change oldestAttempt (recentAttempts controlWindow now
        (db.controlRefreshAttempts.getD [])) = _ at holdest
      have hroom : ¬ (RollingLimits.recent controlWindow now
          (Limiter.controlRefresh.times db)).length < 2 := by
        intro h
        rw [RollingLimits.allows_iff.mpr h] at hallows
        cases hallows
      have hanswer : controlled time db =
          .ok (⟨false, ⌈((oldest + controlWindow - now : Int) : ℚ) / 1000⌉⟩, db) := by
        unfold controlled
        rw [parseInstant_ok.mpr htime]
        change parseAttempts db.controlRefreshAttempts >>= _ = _
        rw [hprevious]
        change Except.ok (if _ then _ else _) = _
        rw [if_neg (by omega), holdest]
        rfl
      refine ⟨_, _, (computes_consumeControlRefreshAttempt time).accepted _ _ _ hanswer, ?_⟩
      have hceil := Int.le_ceil (((oldest + controlWindow - now : Int) : ℚ) / 1000)
      have hceil' := Int.ceil_lt_add_one (((oldest + controlWindow - now : Int) : ℚ) / 1000)
      generalize ⌈((oldest + controlWindow - now : Int) : ℚ) / 1000⌉ = seconds at hceil hceil' ⊢
      change now < oldest + controlWindow at hless
      have hlow : oldest + controlWindow - now ≤ seconds * 1000 := by
        have hscaled : ((oldest + controlWindow - now : Int) : ℚ) ≤ ((seconds * 1000 : Int) : ℚ) := by
          push_cast at hceil ⊢
          linarith
        exact_mod_cast hscaled
      have hhigh : seconds * 1000 < oldest + controlWindow - now + 1000 := by
        have hscaled : ((seconds * 1000 : Int) : ℚ) <
            ((oldest + controlWindow - now + 1000 : Int) : ℚ) := by
          push_cast at hceil' ⊢
          linarith
        exact_mod_cast hscaled
      have hrefused : Limiter.controlRefresh.wouldAllow db time = false := hallow.trans hallows
      refine ⟨hrefused.symm, nofun, fun _ => ⟨rfl, ?_, ?_, ?_⟩⟩
      · change 0 < seconds
        omega
      · intro later u hu hlater
        rw [wouldAllow_iff_of_full hstored hmin hfull hu]
        change oldest + controlWindow ≤ u
        change now + seconds * 1000 ≤ u at hlater
        omega
      · intro later u hu _ hearly
        rw [Bool.eq_false_iff]
        intro hallowed
        have hwould := (wouldAllow_iff_of_full hstored hmin hfull hu).mp hallowed
        change oldest + controlWindow ≤ u at hwould
        change u + 1000 ≤ now + seconds * 1000 at hearly
        omega

end

/-! ## The limiters and their predictors -/

/-- **The limiters and their predictors agree.**  In every run of the store each
limiter remembers two attempts at most; attempts under a clock that does not go
back, whatever else is called between them, put two allowed ones at most into
any half-open window; and the predictors answer when the next one is allowed. -/
theorem limiters_agree (host : Host) (provider : InvestmentProvider)
    (calls : List InvestmentCall) :
    (∀ limiter : Limiter, ((limiter.stored
      (Runs.run (callStep host provider) emptyInvestmentDb calls)).getD []).length ≤ 2) ∧
    (∀ (limiter : Limiter) (rest : List InvestmentCall),
      (rest.filterMap limiter.attemptInstant).Pairwise (· ≤ ·) → ∀ start,
        (RollingLimits.within limiter.window start (allowedAttempts host provider limiter
          (Runs.run (callStep host provider) emptyInvestmentDb calls) rest)).length ≤ 2) ∧
    (∀ time now, dateParse time = some now → ∃ answer s,
      getAutomaticSmsNextAllowedAt time
        ⟨Runs.run (callStep host provider) emptyInvestmentDb calls, []⟩ = .ok answer s ∧
      NextAllowed (Runs.run (callStep host provider) emptyInvestmentDb calls) now time answer) ∧
    ∀ time now, dateParse time = some now → ∃ answer s,
      consumeControlRefreshAttempt time
        ⟨Runs.run (callStep host provider) emptyInvestmentDb calls, []⟩ = .ok answer s ∧
      RetryAfter (Runs.run (callStep host provider) emptyInvestmentDb calls) s.store now time
        answer := by
  refine ⟨fun limiter => (wellStored_run calls).length, ?_,
    fun time now => nextAllowed (wellStored_run calls),
    fun time now => retryAfter (wellStored_run calls)⟩
  intro limiter rest hordered start
  rw [allowedAttempts_eq (wellStored_run calls)]
  have hperformed : (performedAttempts host provider limiter
      (Runs.run (callStep host provider) emptyInvestmentDb calls) rest).Pairwise (· ≤ ·) :=
    hordered.sublist (performedAttempts_sublist _ rest)
  exact RollingLimits.admitted_le hperformed start

/-- Two attempts of the last day that the schema knows. -/
def lastDayAttempts : List InvestmentCall :=
  [⟨.consumeAutomaticSmsAttempt "9999-12-31T12:00:00.000Z", []⟩,
    ⟨.consumeAutomaticSmsAttempt "9999-12-31T12:00:00.000Z", []⟩]

/-- The answer of a program that returns. -/
def answerOf {α : Type} (program : InvestmentM α) (db : InvestmentDb) : Option α :=
  match program ⟨db, []⟩ with
  | .ok answer _ => some answer
  | .error _ _ => none

/-- Three attempts of which the last is 0.8 ms short of a day after the others. -/
def attemptsOfOneDay : List String :=
  ["2026-09-01T00:00:00.0009Z", "2026-09-01T00:00:00.0009Z", "2026-09-02T00:00:00.0001Z"]

/-- After two attempts on the last day the predictor names a time that the
schema does not accept; and by the millisecond three attempts within one day
are allowed. -/
theorem limiters_at_the_edges :
    (answerOf (getAutomaticSmsNextAllowedAt "9999-12-31T13:00:00.000Z")
        (Runs.run (callStep asciiHost .clal) emptyInvestmentDb lastDayAttempts) =
          some (some "+010000-01-01T12:00:00.000Z") ∧
      Limiter.automaticSms.wouldAllow
        (Runs.run (callStep asciiHost .clal) emptyInvestmentDb lastDayAttempts)
        "+010000-01-01T12:00:00.000Z" = false) ∧
    (allowedAttempts asciiHost .clal .automaticSms emptyInvestmentDb
      (attemptsOfOneDay.map fun time => ⟨.consumeAutomaticSmsAttempt time, []⟩)).length = 3 ∧
    ∀ t ∈ attemptsOfOneDay.filterMap Timestamp.parse,
      ∀ u ∈ attemptsOfOneDay.filterMap Timestamp.parse, u.instant < t.instant + 86400 := by
  decide +kernel

end SimplefinBridge
